import Telemax.Media.Answered

/-!
# Telemax.Media.AlbumParts

The parts expected and the parts delivered.  The aliases are written before any
download, one for each attachment; the delivery leaves out what is too large and
numbers the rest from zero.  So the settlement refuses the receipt as soon as one
part is missing, unless all are and something else is in the chat: `keepsParts`
is what is left (`parts_delivered`).
-/

namespace Telemax.Media

open Script AlbumSettlement

/-! ## what is bound in the end -/

/-- Which of the two senders carries the message. -/
inductive Via
  | bot (id : Int) (replyTo : Option Int)
  | owner (account : Option Int)

namespace Via

def column : Via → IdColumn
  | bot .. => .bot
  | owner account => .owner (account.getD 0)

def attempt (via : Via) (message : IncomingMaxMessage) (caption : String) (entities : Entities)
    (link : Nat) : Attempt :=
  match via with
  | bot id replyTo => .media id message caption entities replyTo (some link)
  | owner account => .ownerMedia message caption entities account (some link)

end Via

/-- The settlements of a run are what the tables make of them. -/
def Served (db : AlbumDb) (tr : List (Asked Call.Outcome)) : Prop :=
  ∀ column link parts r, (⟨.settleAlbum column link parts, r⟩ : Asked Call.Outcome) ∈ tr →
    r = .ok (settleAlbum column link parts db).2

def albumsAfter (db : AlbumDb) (tr : List (Asked Call.Outcome)) : MediaGroups :=
  (settlements tr).foldl (fun g x => (settleAlbum x.1 x.2.1 x.2.2 ⟨db.map, g⟩).1.albums) db.albums

/-- Every part that came is delivered and bound to its own alias, and no alias is
bound to anything else. -/
structure PartsDelivered (column : IdColumn) (link n : Nat) (db : AlbumDb)
    (tr : List (Asked Call.Outcome)) (res : Except SendError Int) : Prop where
  done : ∃ sent, res = .ok sent
  bound : ∀ k < n, ∀ file, (fetches tr)[k]? = some (.ok file) →
    ∃ m, BoundAt column link k m (albumsAfter db tr) ∧ (file.path, m) ∈ placed tr
  own : ∀ k m, BoundAt column link k m (albumsAfter db tr) →
    ∃ file, (fetches tr)[k]? = some (.ok file) ∧ (file.path, m) ∈ placed tr

/-- No attachment of the album was too large, or all were and something else is sent. -/
def keepsParts (message : IncomingMaxMessage) (caption : String)
    (tr : List (Asked Call.Outcome)) : Bool :=
  let album := (fetches tr).take (albumAttachments message).length
  album.all isFile || (album.all (fun r => !isFile r) &&
    (!(singleAttachments message).isEmpty || !(splitCaption caption).2.isEmpty))

variable {fetched : List (Except FetchError LocalFile)}

theorem survivors_eq_nil_iff : survivors fetched = [] ↔ fetched.all (fun r => !isFile r) = true := by
  induction fetched with
  | nil => simp [survivors]
  | cons r rest ih => cases r <;> simp_all [survivors, isFile]

theorem length_survivors_le : (survivors fetched).length ≤ fetched.length :=
  List.length_filterMap_le _ _

theorem length_survivors_iff :
    (survivors fetched).length = fetched.length ↔ fetched.all isFile = true := by
  induction fetched with
  | nil => simp [survivors]
  | cons r rest ih =>
      have hle : (survivors rest).length ≤ rest.length := length_survivors_le
      rcases r with e | file
      · have hskip : survivors (.error e :: rest) = survivors rest := rfl
        simp only [hskip, List.length_cons, List.all_cons, isFile, Bool.false_and]
        constructor
        · intro h
          omega
        · intro h
          cases h
      · have htake : survivors (.ok file :: rest) = file.path :: survivors rest := rfl
        simpa [htake, isFile] using ih

/-- Where every file came, each is at its own position. -/
theorem getElem?_survivors (hall : fetched.all isFile = true) {k : Nat} {path : String} :
    (survivors fetched)[k]? = some path ↔ ∃ file, fetched[k]? = some (.ok file) ∧ file.path = path := by
  induction fetched generalizing k with
  | nil => simp [survivors]
  | cons r rest ih =>
      rw [List.all_cons, Bool.and_eq_true] at hall
      rcases r with e | file
      · cases hall.1
      · have htake : survivors (.ok file :: rest) = file.path :: survivors rest := rfl
        cases k with
        | zero => simp [htake]
        | succ k => simpa [htake] using ih hall.2

/-- A part is found at its index. -/
theorem mem_albumParts {album : List DeliveredPart}
    (hindexes : (albumParts album).map (·.1) = (List.range album.length).map Int.ofNat) {k : Nat}
    {m : Int} : (Int.ofNat k, m) ∈ albumParts album ↔
      ((albumParts album).map (·.2))[k]? = some m := by
  have hat : ∀ j x, (albumParts album)[j]? = some x → x.1 = Int.ofNat j := by
    intro j x hx
    have hj : ((albumParts album).map (·.1))[j]? = some x.1 := by rw [List.getElem?_map, hx]; rfl
    rw [hindexes, List.getElem?_map] at hj
    obtain ⟨i, hi, hix⟩ := Option.map_eq_some_iff.mp hj
    rw [List.getElem?_range (by simpa using (List.getElem?_eq_some_iff.mp hi).1)] at hi
    rw [← hix, ← Option.some.inj hi]
  rw [List.mem_iff_getElem?, List.getElem?_map, Option.map_eq_some_iff]
  constructor
  · rintro ⟨j, hj⟩
    have hjk := hat j _ hj
    obtain rfl := Int.ofNat.inj hjk
    exact ⟨_, hj, rfl⟩
  · rintro ⟨x, hx, rfl⟩
    exact ⟨k, by rw [hx, ← hat k x hx]⟩

section

variable {message : IncomingMaxMessage} {caption : String} {tr₁ tr₂ : List (Asked Call.Outcome)}
  {album : List DeliveredPart} {column : IdColumn} {link : Nat} {db : AlbumDb}

theorem take_fetches {n : Nat} (h : AlbumSent n tr₁ album) :
    (fetches (tr₁ ++ tr₂)).take n = fetches tr₁ := by
  rw [fetches_append, List.take_append_of_le_length (Nat.le_of_eq h.fetched.symm), ← h.fetched,
    List.take_length]

theorem getElem?_fetches {n : Nat} (h : AlbumSent n tr₁ album) {k : Nat} (hk : k < n) :
    (fetches (tr₁ ++ tr₂))[k]? = (fetches tr₁)[k]? := by
  rw [fetches_append, List.getElem?_append_left (h.fetched.symm ▸ hk)]

/-- Where the whole album was too large, it is the rest that counts. -/
theorem keepsParts_of_nil (halbum : albumAttachments message ≠ [])
    (h : AlbumSent (albumAttachments message).length tr₁ []) :
    keepsParts message caption (tr₁ ++ tr₂) = true ↔
      ¬ (singleAttachments message = [] ∧ (splitCaption caption).2.isEmpty = true) := by
  have hnone : (fetches tr₁).all (fun r => !isFile r) = true :=
    survivors_eq_nil_iff.mp (List.eq_nil_of_length_eq_zero h.length.symm)
  have hnot : (fetches tr₁).all isFile = false := by
    refine Bool.eq_false_iff.mpr fun hall => halbum (List.eq_nil_of_length_eq_zero ?_)
    rw [← h.fetched, ← length_survivors_iff.mpr hall, ← h.length]
    rfl
  unfold keepsParts
  simp only [take_fetches h, hnone, hnot, Bool.false_or, Bool.true_and, Bool.or_eq_true,
    Bool.not_eq_true', Bool.eq_false_iff, ne_eq, List.isEmpty_iff, not_and_or]

theorem keepsParts_of_ne (h : AlbumSent (albumAttachments message).length tr₁ album)
    (hne : album ≠ []) :
    keepsParts message caption (tr₁ ++ tr₂) = true ↔
      album.length = (albumAttachments message).length := by
  have hsome : (fetches tr₁).all (fun r => !isFile r) = false := by
    refine Bool.eq_false_iff.mpr fun hall => hne (List.eq_nil_of_length_eq_zero ?_)
    rw [h.length, survivors_eq_nil_iff.mpr hall]
    rfl
  unfold keepsParts
  simp only [take_fetches h, hsome, Bool.false_and, Bool.or_false]
  rw [← length_survivors_iff, ← h.length, h.fetched]

/-- A receipt that names every part, settled. -/
theorem partsDelivered_of_accepted
    (h : AlbumSent (albumAttachments message).length tr₁ album) (hne : album ≠ [])
    (hlen : album.length = (albumAttachments message).length)
    (hawait : Awaiting column link (albumAttachments message).length
      ((albumParts album).map (·.2)) db)
    (hset : settlements tr₂ = [(column, link, albumParts album)]) (sent : Int) :
    PartsDelivered column link (albumAttachments message).length db (tr₁ ++ tr₂) (.ok sent) := by
  have hcov := h.covering hne
  have hparts : (albumParts album).length = (albumAttachments message).length := by
    rw [← hlen]
    exact List.length_map _
  have hn : (albumAttachments message).length ≠ 0 := by
    rw [← hlen]
    exact fun hzero => hne (List.eq_nil_of_length_eq_zero hzero)
  have hafter : albumsAfter db (tr₁ ++ tr₂) = (written column link (albumParts album) db).albums := by
    have hsettle := settleAlbum_eq_none.mpr ⟨(hawait.accepts_iff hn hcov).mpr hparts, rfl⟩
    simp only [albumsAfter, settlements_append, h.unsettled, hset, List.nil_append,
      List.foldl_cons, List.foldl_nil]
    exact congrArg (fun x => x.1.albums) hsettle
  have hall : (fetches tr₁).all isFile = true := by
    rw [← length_survivors_iff, ← h.length, h.fetched, hlen]
  have hzip : ∀ {k : Nat} {path : String} {m : Int}, (survivors (fetches tr₁))[k]? = some path →
      ((albumParts album).map (·.2))[k]? = some m → (path, m) ∈ placed (tr₁ ++ tr₂) := by
    intro k path m hpath hm
    rw [placed_append]
    exact List.mem_append_left _ (h.carried _ (List.mem_of_getElem?
      (List.getElem?_zip_eq_some.mpr ⟨hpath, hm⟩)))
  refine ⟨⟨sent, rfl⟩, fun k hk file hfile => ?_, fun k m hbound => ?_⟩
  · rw [getElem?_fetches h hk] at hfile
    have hpath := (getElem?_survivors hall).mpr ⟨file, hfile, rfl⟩
    obtain ⟨m, hm⟩ : ∃ m, ((albumParts album).map (·.2))[k]? = some m :=
      ⟨_, List.getElem?_eq_getElem (by rw [List.length_map, hparts]; exact hk)⟩
    refine ⟨m, ?_, hzip hpath hm⟩
    rw [hafter, hawait.boundAt_written hcov hparts]
    exact (mem_albumParts h.indexes).mpr hm
  · rw [hafter, hawait.boundAt_written hcov hparts, mem_albumParts h.indexes] at hbound
    have hk : k < (albumAttachments message).length := by
      rw [← hparts]
      simpa using (List.getElem?_eq_some_iff.mp hbound).1
    obtain ⟨path, hpath⟩ : ∃ path, (survivors (fetches tr₁))[k]? = some path :=
      ⟨_, List.getElem?_eq_getElem (by rw [← h.length, hlen]; exact hk)⟩
    obtain ⟨file, hfile, rfl⟩ := (getElem?_survivors hall).mp hpath
    exact ⟨file, by rw [getElem?_fetches h hk, hfile], hzip hpath hbound⟩

/-- A delivery without an album leaves the aliases as they were. -/
theorem partsDelivered_of_nil (h : AlbumSent (albumAttachments message).length tr₁ [])
    (hreserved : Reserved link (albumAttachments message).length db.albums)
    (hset : settlements tr₂ = []) (sent : Int) :
    PartsDelivered column link (albumAttachments message).length db (tr₁ ++ tr₂) (.ok sent) := by
  have hafter : albumsAfter db (tr₁ ++ tr₂) = db.albums := by
    simp [albumsAfter, h.unsettled, hset]
  have hnone : (fetches tr₁).all (fun r => !isFile r) = true :=
    survivors_eq_nil_iff.mp (List.eq_nil_of_length_eq_zero h.length.symm)
  refine ⟨⟨sent, rfl⟩, fun k hk file hfile => ?_, fun k m hbound => ?_⟩
  · rw [getElem?_fetches h hk] at hfile
    have hno := List.all_eq_true.mp hnone _ (List.mem_of_getElem? hfile)
    cases hno
  · rw [hafter] at hbound
    exact absurd hbound hreserved.not_boundAt

end

/-! ## the attempt -/

/-- How a mapping is settled after a delivery. -/
structure Settles (column : IdColumn) (link : Nat)
    (settle : Int → List DeliveredPart → SendScript Int) : Prop where
  /-- Without an album it is the head that is written. -/
  head : ∀ sent, (settle sent []).wp fun tr res =>
    settlements tr = [] ∧ (Usable tr → res = .ok sent)
  album : ∀ sent album, album ≠ [] → (settle sent album).wp fun tr res =>
    ∃ r, tr = [⟨.settleAlbum column link (albumParts album), r⟩] ∧
      (r = .ok none → res = .ok sent) ∧ ∀ e, r = .ok (some e) → ∃ e', res = .error e'

theorem settles_album (column : IdColumn) (link : Nat) (sent : Int) (album : List DeliveredPart) :
    (settleAlbumOf column link album >>= fun _ => pure sent : SendScript Int).wp fun tr res =>
      ∃ r, tr = [⟨.settleAlbum column link (albumParts album), r⟩] ∧
        (r = .ok none → res = .ok sent) ∧ ∀ e, r = .ok (some e) → ∃ e', res = .error e' := by
  change ∀ r, Script.wp _ _
  rintro (f | _ | e)
  · refine ⟨_, rfl, fun h => ?_, fun e h => ?_⟩ <;> cases h
  · refine ⟨_, rfl, fun _ => rfl, fun e h => ?_⟩
    cases h
  · refine ⟨_, rfl, fun h => ?_, fun e' _ => ⟨_, rfl⟩⟩
    cases h

theorem settles_telegram (link : Nat) :
    Settles .bot link fun sent album => settleTelegramDeliveryMapping (some link) sent album where
  head sent := by
    change ∀ r, Script.wp _ _
    rintro (f | ⟨⟩)
    · exact ⟨rfl, fun hu => absurd hu.answered (by simp [wellAnswered, Except.toBool])⟩
    · exact ⟨rfl, fun _ => rfl⟩
  album sent album hne := by
    have hempty : album.isEmpty = false := by simpa using hne
    simpa [settleTelegramDeliveryMapping, hempty] using settles_album .bot link sent album

theorem settles_owner (account : Option Int) (link : Nat) :
    Settles (.owner (account.getD 0)) link fun sent album =>
      settleOwnerDeliveryMapping (some link) account sent album where
  head sent := by
    change ∀ r, Script.wp _ _
    rintro (f | ⟨⟩)
    · exact ⟨rfl, fun hu => absurd hu.answered (by simp [wellAnswered, Except.toBool])⟩
    · exact ⟨rfl, fun _ => rfl⟩
  album sent album hne := by
    have hempty : album.isEmpty = false := by simpa using hne
    simpa [settleOwnerDeliveryMapping, hempty] using
      settles_album (.owner (account.getD 0)) link sent album

section

variable {message : IncomingMaxMessage} {caption : String} {column : IdColumn} {link : Nat}

/-- What a whole attempt shows. -/
def Shows (message : IncomingMaxMessage) (caption : String) (column : IdColumn) (link : Nat)
    (db : AlbumDb) (tr : List (Asked Call.Outcome)) (res : Except SendError Int) : Prop :=
  Usable tr → Served db tr → Awaiting column link (albumAttachments message).length (named tr) db →
    (PartsDelivered column link (albumAttachments message).length db tr res ↔
      keepsParts message caption tr = true)

/-- The parts of a receipt are messages the run named. -/
theorem named_of_albumParts {n : Nat} {tr₁ tr₂ : List (Asked Call.Outcome)}
    {album : List DeliveredPart} (h : AlbumSent n tr₁ album) :
    ∀ m ∈ (albumParts album).map (·.2), m ∈ named (tr₁ ++ tr₂) := by
  intro m hm
  obtain ⟨k, hk⟩ := List.mem_iff_getElem?.mp hm
  have hlen : k < (survivors (fetches tr₁)).length := by
    rw [← h.length]
    simpa [albumParts] using (List.getElem?_eq_some_iff.mp hk).1
  have hmem := h.carried (_, m) (List.mem_of_getElem?
    (List.getElem?_zip_eq_some.mpr ⟨List.getElem?_eq_getElem hlen, hk⟩))
  rw [named_append]
  exact List.mem_append_left _ (mem_named_of_placed hmem)

theorem shows_of_settles {x : SendScript (DeliveryReceipt × Bool)}
    {settle : Int → List DeliveredPart → SendScript Int} (text : String) (db : AlbumDb)
    (halbum : albumAttachments message ≠ [])
    (hx : Answers x fun tr p => MaxMediaDelivery.ReceiptOf message (splitCaption caption).2 tr p.1)
    (hsettle : Settles column link settle) :
    (x >>= fun p => Attempt.headOf text p.1 >>= fun head => settle head p.1.album).wp
      (Shows message caption column link db) := by
  unfold Answers at hx
  refine (wp_bind x _).mpr (wp_mono (fun tr res h => ?_) hx)
  cases res with
  | error e =>
      intro hu
      obtain ⟨p, hp, -⟩ := h hu
      cases hp
  | ok p =>
      by_cases hu : Usable tr
      swap
      · exact wp_iff.mpr fun tr' res' _ hu' => absurd hu'.append.1 hu
      obtain ⟨p', hp', tr₁, tr₂, rfl, hsent, hunsettled, hhead⟩ := h hu
      obtain rfl := Except.ok.inj hp'
      dsimp only
      unfold Attempt.headOf
      cases hh : p.1.head with
      | none =>
          obtain ⟨hnil, hrest⟩ := hhead.mp hh
          rw [hnil] at hsent
          intro _ _ _
          refine iff_of_false (fun hparts => ?_) ?_
          · obtain ⟨sent, hok⟩ := hparts.done
            cases hok
          · rw [List.append_nil, keepsParts_of_nil halbum hsent]
            exact not_not.mpr hrest
      | some head =>
          change (settle head p.1.album).wp _
          by_cases hnil : p.1.album = []
          · rw [hnil] at hsent ⊢
            refine wp_mono (fun tr₃ res h₃ hu' _ hawait => ?_) (hsettle.head head)
            obtain rfl := h₃.2 hu'.append.2
            rw [List.append_assoc] at hawait ⊢
            rw [keepsParts_of_nil halbum hsent]
            refine iff_of_true (partsDelivered_of_nil hsent hawait.reserved ?_ head) fun hrest => ?_
            · rw [settlements_append, hunsettled, h₃.1]
              rfl
            · rw [hhead.mpr ⟨hnil, hrest⟩] at hh
              cases hh
          · refine wp_mono (fun tr₃ res h₃ hu' hserved hawait => ?_) (hsettle.album head _ hnil)
            obtain ⟨r, rfl, hok, herror⟩ := h₃
            have hr := hserved column link (albumParts p.1.album) r
              (List.mem_append_right _ List.mem_cons_self)
            rw [List.append_assoc] at hawait ⊢
            replace hawait := hawait.mono (named_of_albumParts hsent)
            rw [keepsParts_of_ne hsent hnil]
            have hacc := hawait.accepts_iff
              (fun hzero => halbum (List.eq_nil_of_length_eq_zero hzero)) (hsent.covering hnil)
            have hlength : (albumParts p.1.album).length = p.1.album.length := List.length_map _
            rw [hlength] at hacc
            by_cases hlen : p.1.album.length = (albumAttachments message).length
            · have hnone := settleAlbum_eq_none.mpr ⟨hacc.mpr hlen, rfl⟩
              obtain rfl := hok (hr.trans (by rw [hnone]))
              refine iff_of_true (partsDelivered_of_accepted hsent hnil hlen hawait ?_ head) hlen
              rw [settlements_append, hunsettled]
              rfl
            · refine iff_of_false (fun hparts => ?_) hlen
              obtain ⟨sent, hsentOk⟩ := hparts.done
              cases hres : (settleAlbum column link (albumParts p.1.album) db).2 with
              | none =>
                  have hnone := settleAlbum_eq_none.mp (Prod.ext rfl hres)
                  exact hlen (hacc.mp hnone.1)
              | some e =>
                  obtain ⟨e', he'⟩ := herror e (hr.trans (by rw [hres]))
                  rw [he'] at hsentOk
                  cases hsentOk

end

attribute [irreducible] Shows

/-- **The parts expected are the parts delivered** iff none was too large, or all
were and something else is sent. -/
theorem parts_delivered (w : Wiring) (via : Via) (target : BridgeTarget)
    {message : IncomingMaxMessage} (caption : String) (entities : Entities) {link stamp : Nat}
    {map : MessageMap} {g : MediaGroups} {tr : List (Asked Call.Outcome)}
    {res : Except SendError Int} (halbum : albumAttachments message ≠ [])
    (hmap : map.Indexed sameLink) (hg : g.Indexed MediaGroups.samePart)
    (hreserved : Reserved link (albumAttachments message).length g)
    (hrow : ∃ r, map.get? link = some r ∧ ∀ id, via.column.freeLink id r = true)
    (hnew : Unclaimed via.column link (named tr) ⟨map, expectAlbum target link stamp message g⟩)
    (hserved : Served ⟨map, expectAlbum target link stamp message g⟩ tr)
    (hrun : Runs ((via.attempt message caption entities link).run w) tr res)
    (husable : Usable tr) :
    PartsDelivered via.column link (albumAttachments message).length
        ⟨map, expectAlbum target link stamp message g⟩ tr res ↔
      keepsParts message caption tr = true := by
  have hexpected : (expectAlbum target link stamp message g).Indexed MediaGroups.samePart ∧ _ :=
    expectAlbum_expected hg hreserved
  obtain ⟨hindexed, hours, haliased⟩ := hexpected
  have hshows : ((via.attempt message caption entities link).run w).wp
      (Shows message caption via.column link ⟨map, expectAlbum target link stamp message g⟩) := by
    cases via with
    | bot id replyTo =>
        have hreceipt := MaxMediaDelivery.delivered_deliverReceipt
          (d := w.delivery (registryMediaSender id)) (answers_registryMediaSender id) halbum caption
          entities replyTo false
        have hattempt := shows_of_settles "Telegram returned no message id for the attachments"
          ⟨map, expectAlbum target link stamp message g⟩ halbum hreceipt (settles_telegram link)
        exact hattempt
    | owner account =>
        have hreceipt := MaxMediaDelivery.delivered_deliverReceipt
          (d := w.delivery mtprotoOwnerSender) answers_mtprotoOwnerSender halbum caption entities
          none false
        have hattempt := shows_of_settles
          "the owner's session returned no message id for the attachments"
          ⟨map, expectAlbum target link stamp message g⟩ halbum hreceipt
          (settles_owner account link)
        exact hattempt
  have hshown := Runs.of_wp hshows hrun
  unfold Shows at hshown
  exact hshown husable hserved ⟨hmap, hindexed, hours, haliased, hrow, hnew⟩

/-! ## two runs -/

/-- Two photos; the second is two points wide. -/
private def twoPhotos : IncomingMaxMessage :=
  ⟨false, [{ kind := .photo }, { kind := .photo, width := some 2 }]⟩

private def toBridge : BridgeTarget := ⟨"bridge", 9, 5⟩

/-- The mapping row of the message, as it was claimed. -/
private def claimedRow : MessageMap :=
  Table.empty.insert (MessageMap.newClaim "bridge" 9 500 5 100 none 1)

private def expecting : AlbumDb :=
  ⟨claimedRow, expectAlbum toBridge 1 1 twoPhotos Table.empty⟩

/-- Telegram answers everything; `second` is what comes of the second photo. -/
private def answering (second : Except FetchError LocalFile) (_ : List (Asked Call.Outcome)) :
    (c : Call) → c.Outcome
  | .fetch a => if a.width.isSome then second else .ok ⟨"a.jpg", "a.jpg"⟩
  | .cover _ => .ok none
  | .sending => .ok ()
  | .registered => true
  | .session => true
  | .send (.group _) _ => .ok ⟨[some 10, some 11], none⟩
  | .send (.message ..) _ => .ok (some 10)
  | .send (.file ..) _ => .ok (some 11)
  | .send _ _ => .error (.fault .cancelled)
  | .noteOrigin .. => .ok ()
  | .seedBaseline _ => .ok ()
  | .settleAlbum column link parts => .ok (settleAlbum column link parts expecting).2
  | .attachTelegram .. => .ok ()
  | .attachOwner .. => .ok ()

private def sendsPhotos (second : Except FetchError LocalFile) :
    List (Asked Call.Outcome) × Except SendError Int :=
  play (answering second) []
    (((Via.bot 5 none).attempt twoPhotos "" none 1).run ⟨20971520, false, none⟩)

private theorem served_sendsPhotos (second : Except FetchError LocalFile) :
    Served expecting (sendsPhotos second).1 := by
  intro column link parts r hmem
  obtain ⟨past, hr⟩ := mem_play hmem
  exact hr

private theorem unclaimed_expecting (ids : List Int) : Unclaimed .bot 1 ids expecting := by
  intro r₀ i r _ hr _ id _
  have hrows : (i, r) ∈ [(1, MessageMap.newClaim "bridge" 9 500 5 100 none 1)] :=
    Table.get?_eq_some_iff.mp hr
  obtain ⟨rfl, rfl⟩ := Prod.mk.inj (List.mem_singleton.mp hrows)
  exact fun h => by cases h

private theorem row_claimedRow :
    ∃ r, claimedRow.get? 1 = some r ∧ ∀ id, IdColumn.bot.freeLink id r = true :=
  ⟨_, rfl, fun _ => rfl⟩

theorem parts_delivered_both :
    PartsDelivered .bot 1 2 expecting (sendsPhotos (.ok ⟨"b.jpg", "b.jpg"⟩)).1
      (sendsPhotos (.ok ⟨"b.jpg", "b.jpg"⟩)).2 :=
  (parts_delivered ⟨20971520, false, none⟩ (.bot 5 none) toBridge "" none (by decide) (by decide)
    (by decide) (fun i p hp => by cases hp) row_claimedRow (unclaimed_expecting _)
    (served_sendsPhotos _) (runs_play _ _ _) ⟨rfl, by decide, by decide⟩).mpr rfl

/-- One photo is too large, everything is answered, and the owner is asked. -/
theorem not_parts_delivered :
    ¬ ∀ (w : Wiring) (via : Via) (target : BridgeTarget) (message : IncomingMaxMessage)
      (caption : String) (entities : Entities) (link stamp : Nat) (map : MessageMap)
      (g : MediaGroups) (tr : List (Asked Call.Outcome)) (res : Except SendError Int),
      albumAttachments message ≠ [] → map.Indexed sameLink → g.Indexed MediaGroups.samePart →
      Reserved link (albumAttachments message).length g →
      (∃ r, map.get? link = some r ∧ ∀ id, via.column.freeLink id r = true) →
      Unclaimed via.column link (named tr) ⟨map, expectAlbum target link stamp message g⟩ →
      Served ⟨map, expectAlbum target link stamp message g⟩ tr →
      Runs ((via.attempt message caption entities link).run w) tr res → Usable tr →
      PartsDelivered via.column link (albumAttachments message).length
        ⟨map, expectAlbum target link stamp message g⟩ tr res := by
  intro h
  have hparts := h ⟨20971520, false, none⟩ (.bot 5 none) toBridge twoPhotos "" none 1 1 claimedRow
    Table.empty (sendsPhotos (.error (.tooLarge 20971520))).1
    (sendsPhotos (.error (.tooLarge 20971520))).2 (by decide) (by decide) (by decide)
    (fun i p hp => by cases hp) row_claimedRow (unclaimed_expecting _) (served_sendsPhotos _)
    (runs_play _ _ _) ⟨rfl, by decide, by decide⟩
  obtain ⟨sent, hsent⟩ := hparts.done
  cases hsent

end Telemax.Media
