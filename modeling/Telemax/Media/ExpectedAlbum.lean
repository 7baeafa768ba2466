import Telemax.Media.Attachments
import Telemax.Routing.Keys
import Telemax.Storage.AlbumSettlement

/-!
# Telemax.Media.ExpectedAlbum

`_expect_album`: the aliases of the parts an album will have, written before
there is a job.  A settlement of as many parts as were expected binds each to the
alias of its position (`settled_iff`), and any other number binds nothing.
-/

namespace Telemax.Media

open AlbumSettlement

/-- The row of one part, without the columns a settlement does not read. -/
def expectedPart (target : BridgeTarget) (link index stamp : Nat) : MediaGroupPart where
  mediaGroupId := expectedAlbumNamespace link
  bridgeName := target.name
  botId := target.botId
  createdAt := stamp
  linkId := some link
  direction := some .maxToTg
  partIndex := some index

/-- The loop of `_expect_album`, from a position on. -/
def expectFrom (target : BridgeTarget) (link stamp : Nat) :
    Nat → List MaxAttachment → MediaGroups → MediaGroups
  | _, [], g => g
  | index, _ :: rest, g =>
      expectFrom target link stamp (index + 1) rest (g.addPart (expectedPart target link index stamp))

/-- `_expect_album`. -/
def expectAlbum (target : BridgeTarget) (link stamp : Nat) (message : IncomingMaxMessage)
    (g : MediaGroups) : MediaGroups :=
  expectFrom target link stamp 0 (albumAttachments message) g

/-- An alias of one of the first `n` positions that is bound to nothing. -/
structure Unbound (link n : Nat) (p : MediaGroupPart) : Prop where
  group : p.mediaGroupId = expectedAlbumNamespace link
  link : p.linkId = some link
  index : ∃ k < n, p.partIndex = some k
  bot : p.telegramMessageId = none
  owner : p.telegramOwnerMessageId = none

/-- Nothing stands for the mapping row, or in its namespace, but aliases of this
album that are bound to nothing: there are none, or an earlier pass wrote them. -/
def Reserved (link n : Nat) (g : MediaGroups) : Prop :=
  ∀ i p, g.get? i = some p →
    p.linkId = some link ∨ p.mediaGroupId = expectedAlbumNamespace link → Unbound link n p

/-- The aliases of the positions below `m` are there. -/
def AliasedTo (link m : Nat) (g : MediaGroups) : Prop :=
  ∀ k < m, ∃ i p, g.get? i = some p ∧ p.linkId = some link ∧ p.partIndex = some k

variable {target : BridgeTarget} {link stamp n : Nat} {g : MediaGroups}

theorem unbound_expectedPart {k : Nat} (hk : k < n) :
    Unbound link n (expectedPart target link k stamp) := ⟨rfl, rfl, ⟨k, hk, rfl⟩, rfl, rfl⟩

/-- An index refuses an alias only where it is there already. -/
theorem samePart_expectedPart {k : Nat} {q : MediaGroupPart} :
    MediaGroups.samePart (expectedPart target link k stamp) q = true ↔
      q.mediaGroupId = expectedAlbumNamespace link ∧ q.partIndex = some k := by
  rw [eq_comm (a := q.mediaGroupId), eq_comm (a := q.partIndex)]
  simp [MediaGroups.samePart, expectedPart]

/-- One turn of the loop. -/
theorem addPart_expected (hindexed : g.Indexed MediaGroups.samePart) (hreserved : Reserved link n g)
    {k : Nat} (hk : k < n) (haliased : AliasedTo link k g) :
    (g.addPart (expectedPart target link k stamp)).Indexed MediaGroups.samePart ∧
      Reserved link n (g.addPart (expectedPart target link k stamp)) ∧
      AliasedTo link (k + 1) (g.addPart (expectedPart target link k stamp)) := by
  unfold MediaGroups.addPart
  by_cases hthere : g.holdsOf fun _ q => MediaGroups.samePart (expectedPart target link k stamp) q
  · rw [if_pos hthere]
    refine ⟨hindexed, hreserved, fun j hj => ?_⟩
    rcases Nat.lt_succ_iff_lt_or_eq.mp hj with hlt | rfl
    · exact haliased j hlt
    · obtain ⟨i, p, hp, hsame⟩ := Table.holdsOf_iff.mp hthere
      obtain ⟨hgroup, hindex⟩ := samePart_expectedPart.mp hsame
      exact ⟨i, p, hp, (hreserved i p hp (.inr hgroup)).link, hindex⟩
  · rw [if_neg hthere]
    have hfree : ∀ j q, g.get? j = some q →
        MediaGroups.samePart (expectedPart target link k stamp) q = false := by
      intro j q hq
      by_contra hsame
      exact hthere (Table.holdsOf_iff.mpr ⟨j, q, hq, by simpa using hsame⟩)
    have hold : ∀ {i p}, g.get? i = some p →
        (g.insert (expectedPart target link k stamp)).get? i = some p := by
      intro i p hp
      rw [Table.get?_insert, if_neg (Nat.ne_of_lt (Table.lt_next hp)), hp]
    refine ⟨hindexed.insert samePart_comm hfree, fun i p hp hours => ?_, fun j hj => ?_⟩
    · rw [Table.get?_insert] at hp
      split at hp
      · cases hp
        exact unbound_expectedPart hk
      · exact hreserved i p hp hours
    · rcases Nat.lt_succ_iff_lt_or_eq.mp hj with hlt | rfl
      · obtain ⟨i, p, hp, hrest⟩ := haliased j hlt
        exact ⟨i, p, hold hp, hrest⟩
      · exact ⟨g.next, _, by rw [Table.get?_insert, if_pos rfl], rfl, rfl⟩

theorem expectFrom_expected {k : Nat} {attachments : List MaxAttachment}
    (hn : k + attachments.length = n) (hindexed : g.Indexed MediaGroups.samePart)
    (hreserved : Reserved link n g) (haliased : AliasedTo link k g) :
    (expectFrom target link stamp k attachments g).Indexed MediaGroups.samePart ∧
      Reserved link n (expectFrom target link stamp k attachments g) ∧
      AliasedTo link n (expectFrom target link stamp k attachments g) := by
  induction attachments generalizing k g with
  | nil =>
      rw [List.length_nil, Nat.add_zero] at hn
      exact ⟨hindexed, hreserved, hn ▸ haliased⟩
  | cons a rest ih =>
      rw [List.length_cons] at hn
      have hadded : (g.addPart (expectedPart target link k stamp)).Indexed MediaGroups.samePart ∧ _ :=
        addPart_expected hindexed hreserved (by omega) haliased
      obtain ⟨hindexed', hreserved', haliased'⟩ := hadded
      exact ih (by omega) hindexed' hreserved' haliased'

theorem expectAlbum_expected {message : IncomingMaxMessage}
    (hindexed : g.Indexed MediaGroups.samePart)
    (hreserved : Reserved link (albumAttachments message).length g) :
    (expectAlbum target link stamp message g).Indexed MediaGroups.samePart ∧
      Reserved link (albumAttachments message).length (expectAlbum target link stamp message g) ∧
      AliasedTo link (albumAttachments message).length (expectAlbum target link stamp message g) :=
  expectFrom_expected (Nat.zero_add _) hindexed hreserved fun k hk => absurd hk (Nat.not_lt_zero k)

/-! ## settling against them -/

variable {column : IdColumn} {parts : Receipt} {db : AlbumDb}

/-- Telegram gives a new message a new id: no row names one of these yet, for the
bot of the mapping row or for the owner's account. -/
def Unclaimed (column : IdColumn) (link : Nat) (ids : List Int) (db : AlbumDb) : Prop :=
  match column with
  | .bot => ∀ r₀ i r, db.map.get? link = some r₀ → db.map.get? i = some r →
      r.telegramBotId = r₀.telegramBotId → ∀ id ∈ ids, r.telegramMessageId ≠ some id
  | .owner account => ∀ i p, db.albums.get? i = some p → p.telegramOwnerAccountId = some account →
      ∀ id ∈ ids, p.telegramOwnerMessageId ≠ some id

/-- The tables as a settlement of the album finds them. -/
structure Awaiting (column : IdColumn) (link n : Nat) (ids : List Int) (db : AlbumDb) : Prop where
  map : db.map.Indexed sameLink
  albums : db.albums.Indexed MediaGroups.samePart
  reserved : Reserved link n db.albums
  aliased : AliasedTo link n db.albums
  /-- The mapping row is there, and nothing is in its column. -/
  row : ∃ r, db.map.get? link = some r ∧ ∀ id, column.freeLink id r = true
  unclaimed : Unclaimed column link ids db

theorem Awaiting.mono {ids ids' : List Int} (h : Awaiting column link n ids db)
    (hsub : ∀ id ∈ ids', id ∈ ids) : Awaiting column link n ids' db where
  map := h.map
  albums := h.albums
  reserved := h.reserved
  aliased := h.aliased
  row := h.row
  unclaimed := by
    have hnew := h.unclaimed
    cases column with
    | bot => exact fun r₀ i r hr₀ hr hbot id hid => hnew r₀ i r hr₀ hr hbot id (hsub id hid)
    | owner account => exact fun i p hp haccount id hid => hnew i p hp haccount id (hsub id hid)

theorem Awaiting.mem_expected {ids : List Int} (h : Awaiting column link n ids db) {k : Int} :
    k ∈ (expected db.albums link).map (·.1) ↔ k ∈ (List.range n).map Int.ofNat := by
  simp only [List.mem_map, Prod.exists, exists_and_right, exists_eq_right, List.mem_range]
  constructor
  · rintro ⟨i, hmem⟩
    obtain ⟨p, hp, hlink, hk⟩ := AlbumSettlement.mem_expected.mp hmem
    obtain ⟨j, hj, hindex⟩ := (h.reserved i p hp (.inl hlink)).index
    rw [hindex] at hk
    exact ⟨j, hj, Option.some.inj hk⟩
  · rintro ⟨j, hj, rfl⟩
    obtain ⟨i, p, hp, hlink, hindex⟩ := h.aliased j hj
    exact ⟨i, AlbumSettlement.mem_expected.mpr ⟨p, hp, hlink, by rw [hindex]; rfl⟩⟩

/-- There is one position for each part. -/
theorem Awaiting.length_positions {ids : List Int} (h : Awaiting column link n ids db) :
    (positions (expected db.albums link)).length = n := by
  have hnodup : ((List.range n).map Int.ofNat).Nodup := List.nodup_range.map fun _ _ => Int.ofNat.inj
  have hperm : (positions (expected db.albums link)).Perm ((List.range n).map Int.ofNat) :=
    (List.perm_ext_iff_of_nodup (List.nodup_dedup _) hnodup).mpr fun _ =>
      List.mem_dedup.trans h.mem_expected
  simpa using hperm.length_eq

theorem Awaiting.matchParts_iff {ids : List Int} (h : Awaiting column link n ids db)
    (hcov : Covering parts) :
    matchParts (expected db.albums link) parts link = none ↔ parts.length = n := by
  unfold matchParts
  rw [h.length_positions]
  constructor
  · intro hnone
    by_contra hne
    rw [if_pos (fun heq => hne heq.symm)] at hnone
    cases hnone
  · rintro rfl
    have hmissing : (parts.map (·.1)).filter
        (fun k => ((expected db.albums link).lookup k).isNone) = [] := by
      refine List.filter_eq_nil_iff.mpr fun k hk => ?_
      rw [hcov.indexes, ← h.mem_expected] at hk
      obtain ⟨x, hx, rfl⟩ := List.mem_map.mp hk
      rw [Option.isNone_iff_eq_none, List.lookup_eq_none_iff]
      exact fun hno => by simpa using hno x hx
    simp [hmissing]

/-- An alias of the album can take an id no row names. -/
theorem Awaiting.claimable_part {ids : List Int} (h : Awaiting column link n ids db) {i : Nat}
    {m : Int} (hm : m ∈ ids) (hi : ∃ k, (k, i) ∈ expected db.albums link) :
    db.albums.claimable MediaGroups.samePart column.freePart column.writePart i m = true := by
  obtain ⟨k, hk⟩ := hi
  obtain ⟨p, hp, hlink, -⟩ := AlbumSettlement.mem_expected.mp hk
  have hours := h.reserved i p hp (.inl hlink)
  have hfree : column.freePart m p = true := by
    cases column <;> simp [IdColumn.freePart, IdColumn.empty, hours.bot, hours.owner]
  simp only [Table.claimable, hp, Option.any_some, hfree, Bool.true_and, Bool.not_eq_true']
  rw [Table.clashes_eq_false_iff]
  intro j q hq hne
  have hkept := Table.clashes_eq_false_iff.mp (h.albums i p hp) j q hq hne
  have hunnamed : p.mediaGroupId = q.mediaGroupId → q.telegramMessageId = none := fun hgroup =>
    (h.reserved j q hq (.inr (hgroup.symm.trans hours.group))).bot
  cases column with
  | bot =>
      simp only [MediaGroups.samePart, IdColumn.writePart, hours.owner, Option.isSome_none,
        Bool.false_and, Bool.or_false, Bool.and_eq_false_iff, Bool.or_eq_false_iff,
        beq_eq_false_iff_ne] at hkept ⊢
      rcases hkept with hgroup | hindex
      · exact .inl hgroup
      · by_cases hgroup : p.mediaGroupId = q.mediaGroupId
        · exact .inr ⟨.inr (by rw [hunnamed hgroup]; simp), hindex.2⟩
        · exact .inl hgroup
  | owner account =>
      have hnew := h.unclaimed j q hq
      simp only [MediaGroups.samePart, IdColumn.writePart, hours.owner, hours.bot,
        Option.isSome_none, Option.isSome_some, Bool.false_and, Bool.true_and, Bool.or_false,
        Bool.false_or, Bool.and_eq_false_iff, Bool.or_eq_false_iff, beq_eq_false_iff_ne] at hkept ⊢
      refine ⟨hkept, ?_⟩
      by_cases haccount : q.telegramOwnerAccountId = some account
      · exact .inl (.inl fun heq => hnew haccount m hm heq.symm)
      · exact .inr fun heq => haccount heq.symm

theorem Awaiting.claimable_row {ids : List Int} (h : Awaiting column link n ids db) {m : Int}
    (hm : m ∈ ids) :
    db.map.claimable sameLink column.freeLink column.writeLink link m = true := by
  obtain ⟨r, hr, hfree⟩ := h.row
  simp only [Table.claimable, hr, Option.any_some, hfree, Bool.true_and, Bool.not_eq_true']
  rw [Table.clashes_eq_false_iff]
  intro j q hq hne
  have hkept := Table.clashes_eq_false_iff.mp (h.map link r hr) j q hq hne
  cases column with
  | bot =>
      have hnew := h.unclaimed r j q hr hq
      simp only [sameLink, MessageMap.sameMax, MessageMap.sameTelegram, IdColumn.writeLink,
        Bool.or_eq_false_iff] at hkept ⊢
      refine ⟨hkept.1, ?_⟩
      rw [Option.isSome_some, Bool.true_and, Bool.and_eq_false_iff, beq_eq_false_iff_ne,
        beq_eq_false_iff_ne]
      by_cases hbot : q.telegramBotId = r.telegramBotId
      · exact .inl fun heq => hnew hbot m hm heq.symm
      · exact .inr (Ne.symm hbot)
  | owner account =>
      simpa [sameLink, MessageMap.sameMax, MessageMap.sameTelegram, IdColumn.writeLink] using hkept

/-- **A settlement of a covering receipt** binds the album iff it names as many
parts as were expected. -/
theorem Awaiting.accepts_iff (h : Awaiting column link n (parts.map (·.2)) db) (hn : n ≠ 0)
    (hcov : Covering parts) : accepts column link parts db = true ↔ parts.length = n := by
  have hne : expected db.albums link ≠ [] := by
    intro hnil
    have hlen := h.length_positions
    rw [hnil] at hlen
    exact hn hlen.symm
  rw [AlbumSettlement.accepts_iff, h.matchParts_iff hcov]
  refine ⟨fun hacc => hacc.2.1 hne, fun hlen => ⟨hcov, fun _ => hlen, ?_, ?_⟩⟩
  · refine h.claimable_row ?_
    cases parts with
    | nil => exact absurd rfl hcov.nonempty
    | cons x rest => simp [head]
  · rintro ⟨i, m⟩ hmem
    obtain ⟨k, hpart, hlookup⟩ := mem_targets.mp hmem
    exact h.claimable_part (List.mem_map.mpr ⟨(k, m), hpart, rfl⟩)
      ⟨k, mem_of_lookup hlookup⟩

theorem Unbound.identityPart {p : MediaGroupPart} (h : Unbound link n p) :
    column.identityPart p = none := by
  cases column <;> simp [IdColumn.identityPart, IdColumn.identity, h.bot, h.owner]

/-- What the alias at a position is bound to in the end. -/
def BoundAt (column : IdColumn) (link k : Nat) (m : Int) (g : MediaGroups) : Prop :=
  ∃ i p, g.get? i = some p ∧ p.linkId = some link ∧ p.partIndex = some k ∧
    column.identityPart p = some (column.named m)

theorem named_injective {m m' : Int} (h : column.named m = column.named m') : m = m' := by
  cases column <;> simpa [IdColumn.named] using h

/-- A settlement binds the aliases by the receipt, and no others. -/
theorem Awaiting.boundAt_written {ids : List Int} (h : Awaiting column link n ids db)
    (hcov : Covering parts) (hlen : parts.length = n) {k : Nat} {m : Int} :
    BoundAt column link k m (written column link parts db).albums ↔ (Int.ofNat k, m) ∈ parts := by
  constructor
  · rintro ⟨i, p, hp, hlink, hindex, hid⟩
    by_cases htarget : ∃ m', (i, m') ∈ targets (expected db.albums link) parts
    · obtain ⟨m', hm'⟩ := htarget
      obtain ⟨p₀, hp₀, rfl⟩ := Option.map_eq_some_iff.mp ((hcov.get?_target hm').symm.trans hp)
      rw [IdColumn.writePart_partIndex] at hindex
      rw [IdColumn.identityPart_writePart, Option.some.injEq] at hid
      obtain rfl := named_injective hid
      exact (lookup_of_target hm' hp₀ (by rw [hindex]; rfl)).1
    · have hp₀ : db.albums.get? i = some p :=
        (hcov.get?_other fun m' hm' => htarget ⟨m', hm'⟩).symm.trans hp
      rw [(h.reserved i p hp₀ (.inl hlink)).identityPart] at hid
      cases hid
  · intro hmem
    have hkey : Int.ofNat k ∈ (expected db.albums link).map (·.1) := by
      rw [h.mem_expected, ← hlen, ← hcov.indexes]
      exact List.mem_map.mpr ⟨_, hmem, rfl⟩
    obtain ⟨x, hx, hxk⟩ := List.mem_map.mp hkey
    obtain ⟨i, hi⟩ : ∃ i, (expected db.albums link).lookup (Int.ofNat k) = some i := by
      refine Option.isSome_iff_exists.mp (Option.isSome_iff_ne_none.mpr fun hnone => ?_)
      exact absurd hxk.symm (by simpa using List.lookup_eq_none_iff.mp hnone x hx)
    obtain ⟨p, hp, hlink, hindex⟩ := AlbumSettlement.mem_expected.mp (mem_of_lookup hi)
    have hget : (Table.claimed column.writePart _ db.albums).get? i = _ :=
      hcov.get?_target (mem_targets.mpr ⟨_, hmem, hi⟩)
    rw [hp, Option.map_some] at hget
    obtain ⟨j, hj, hjk⟩ := Option.map_eq_some_iff.mp hindex
    obtain rfl := Int.ofNat.inj hjk
    exact ⟨i, _, hget, by simpa using hlink, by simpa using hj, IdColumn.identityPart_writePart p⟩

/-- The aliases as they were expected are bound to nothing. -/
theorem Reserved.not_boundAt (h : Reserved link n g) {k : Nat} {m : Int} :
    ¬ BoundAt column link k m g := by
  rintro ⟨i, p, hp, hlink, -, hid⟩
  rw [(h i p hp (.inl hlink)).identityPart] at hid
  cases hid

end Telemax.Media
