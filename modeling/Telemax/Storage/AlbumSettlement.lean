import Mathlib.Data.List.Dedup
import Mathlib.Data.List.Perm.Subperm
import Mathlib.Data.List.Sort
import Telemax.Lib.Unique
import Telemax.Storage.MessageMap

/-!
# Telemax.Storage.AlbumSettlement

`AlbumSettlementRepository`: the identity of a delivered album, written in one
transaction.  The head of the receipt goes onto the row of the mapping, every
id onto the alias of its position; an empty column takes its id, the same id is
accepted, anything else is refused, and a refusal undoes the whole.

The guard reads the id and not the account beside it, so on the owner's side a
row that carries the same id under another account is overwritten; and of two
aliases at one position only the last is bound.  `keepsAll` is what is left
(`album_settlement`).
-/

namespace Telemax

structure AlbumDb where
  map : MessageMap
  albums : MediaGroups

/-- `AlbumSettlementError`, by its message. -/
inductive AlbumSettlementError
  | noParts
  | notCovering (indexes : List Int)
  | namedTwice
  | impossibleId
  | notAscending (ids : List Int)
  | wrongCount (link named expected : Nat)
  | noPosition (link : Nat) (missing : List Int)
  | canonicalTaken (link : Nat) (column : String) (value : Int)
  | canonicalDiffers (link : Nat) (column : String) (value : Int)
  | partTaken (link : Nat) (index : Int) (column : String) (value : Int)
  | partDiffers (link : Nat) (index : Int) (column : String)
  deriving DecidableEq, Repr

namespace AlbumSettlementError

def text : AlbumSettlementError → String
  | noParts => "an album settlement was asked to bind no parts"
  | notCovering indexes =>
      s!"the parts do not cover 0..{(indexes.length : Int) - 1} exactly: {indexes}"
  | namedTwice => "the same message id was named for two parts"
  | impossibleId => "a message id that cannot exist was named"
  | notAscending ids => s!"the message ids are not ascending in part order: {ids}"
  | wrongCount link named expected =>
      s!"album {link}: Telegram named {named} message(s) for {expected} expected part(s); nothing was bound"
  | noPosition link missing => s!"album {link}: no expected part at position(s) {missing}"
  | canonicalTaken link column value =>
      s!"album {link}: {column} {value} already belongs to another message"
  | canonicalDiffers link column value =>
      s!"album {link}: the canonical row already names a different {column} than {value}"
  | partTaken link index column value =>
      s!"album {link}: part {index} cannot take {column} {value}; another part already claims it"
  | partDiffers link index column => s!"album {link}: part {index} already carries a different {column}"

end AlbumSettlementError

/-! ## the columns of an identity -/

/-- Whose ids a settlement writes: the bot's, or those an account of the owner issued. -/
inductive IdColumn
  | bot
  | owner (account : Int)
  deriving DecidableEq, Repr

namespace IdColumn

def name : IdColumn → String
  | bot => "telegram_message_id"
  | owner _ => "telegram_owner_message_id"

/-- What the guard reads: an empty column, or the very value. -/
def empty (carried : Option Int) (value : Int) : Bool := carried.isNone || carried == some value

def freeLink : IdColumn → Int → MessageLink → Bool
  | bot, value, r => empty r.telegramMessageId value
  | owner _, value, r => empty r.telegramOwnerMessageId value

def writeLink : IdColumn → Int → MessageLink → MessageLink
  | bot, value, r => { r with telegramMessageId := some value }
  | owner account, value, r =>
      { r with telegramOwnerMessageId := some value, telegramOwnerAccountId := some account }

def freePart : IdColumn → Int → MediaGroupPart → Bool
  | bot, value, p => empty p.telegramMessageId value
  | owner _, value, p => empty p.telegramOwnerMessageId value

def writePart : IdColumn → Int → MediaGroupPart → MediaGroupPart
  | bot, value, p => { p with telegramMessageId := some value }
  | owner account, value, p =>
      { p with telegramOwnerAccountId := some account, telegramOwnerMessageId := some value }

/-- An id with the account that issued it. -/
def named : IdColumn → Int → Option Int × Int
  | bot, value => (none, value)
  | owner account, value => (some account, value)

/-- The identity the columns spell: on the owner's side the account belongs to it. -/
def identity (column : IdColumn) (message account owned : Option Int) : Option (Option Int × Int) :=
  match column with
  | bot => message.map fun id => (none, id)
  | owner _ => account.bind fun account => owned.map fun id => (some account, id)

def identityLink (column : IdColumn) (r : MessageLink) : Option (Option Int × Int) :=
  column.identity r.telegramMessageId r.telegramOwnerAccountId r.telegramOwnerMessageId

def identityPart (column : IdColumn) (p : MediaGroupPart) : Option (Option Int × Int) :=
  column.identity p.telegramMessageId p.telegramOwnerAccountId p.telegramOwnerMessageId

variable {column : IdColumn} {value : Int}

@[simp] theorem identityLink_writeLink (r : MessageLink) :
    column.identityLink (column.writeLink value r) = some (column.named value) := by
  cases column <;> rfl

@[simp] theorem identityPart_writePart (p : MediaGroupPart) :
    column.identityPart (column.writePart value p) = some (column.named value) := by
  cases column <;> rfl

@[simp] theorem writePart_linkId (p : MediaGroupPart) :
    (column.writePart value p).linkId = p.linkId := by
  cases column <;> rfl

@[simp] theorem writePart_partIndex (p : MediaGroupPart) :
    (column.writePart value p).partIndex = p.partIndex := by
  cases column <;> rfl

@[simp] theorem freeLink_writeLink (r : MessageLink) :
    column.freeLink value (column.writeLink value r) = true := by
  cases column <;> simp [freeLink, writeLink, empty]

@[simp] theorem freePart_writePart (p : MediaGroupPart) :
    column.freePart value (column.writePart value p) = true := by
  cases column <;> simp [freePart, writePart, empty]

/-- A row that spells the identity already is left as it is. -/
theorem writeLink_eq {r : MessageLink} (h : column.identityLink r = some (column.named value)) :
    column.writeLink value r = r := by
  cases column with
  | bot =>
      obtain ⟨id, hid, hval⟩ := Option.map_eq_some_iff.mp h
      simp only [named, Prod.mk.injEq, true_and] at hval
      simp [writeLink, ← hval, ← hid]
  | owner account =>
      obtain ⟨acc, hacc, hid⟩ := Option.bind_eq_some_iff.mp h
      obtain ⟨id, hid, hval⟩ := Option.map_eq_some_iff.mp hid
      simp only [named, Prod.mk.injEq, Option.some.injEq] at hval
      simp [writeLink, ← hval.1, ← hval.2, ← hid, ← hacc]

theorem writePart_eq {p : MediaGroupPart} (h : column.identityPart p = some (column.named value)) :
    column.writePart value p = p := by
  cases column with
  | bot =>
      obtain ⟨id, hid, hval⟩ := Option.map_eq_some_iff.mp h
      simp only [named, Prod.mk.injEq, true_and] at hval
      simp [writePart, ← hval, ← hid]
  | owner account =>
      obtain ⟨acc, hacc, hid⟩ := Option.bind_eq_some_iff.mp h
      obtain ⟨id, hid, hval⟩ := Option.map_eq_some_iff.mp hid
      simp only [named, Prod.mk.injEq, Option.some.injEq] at hval
      simp [writePart, ← hval.1, ← hval.2, ← hid, ← hacc]

end IdColumn

/-! ## the receipt and what is expected -/

/-- What Telegram answered: the position of a part, and the message that carries it. -/
abbrev Receipt := List (Int × Int)

namespace AlbumSettlement

/-- `_check_receipt`. -/
def checkReceipt (parts : Receipt) : Option AlbumSettlementError :=
  let indexes := parts.map (·.1)
  let ids := parts.map (·.2)
  if parts.isEmpty then some .noParts
  else if indexes ≠ indexes.insertionSort (· ≤ ·) || indexes ≠ (List.range parts.length).map Int.ofNat then
    some (.notCovering indexes)
  else if ids.dedup.length ≠ ids.length then some .namedTwice
  else if ids.any (· ≤ 0) then some .impossibleId
  else if ¬ ids.IsChain (· < ·) then some (.notAscending ids)
  else none

/-- `_expected`: the aliases of a mapping row by position.  The dictionary keeps
the last row of a position, so the rows are listed last first. -/
def expected (g : MediaGroups) (link : Nat) : List (Int × Nat) :=
  (g.select fun _ p => p.linkId == some link).reverse.filterMap fun x =>
    x.2.partIndex.map fun k => (Int.ofNat k, x.1)

/-- The keys of that dictionary. -/
def positions (expected : List (Int × Nat)) : List Int := (expected.map (·.1)).dedup

/-- `_match`. -/
def matchParts (expected : List (Int × Nat)) (parts : Receipt) (link : Nat) :
    Option AlbumSettlementError :=
  if (positions expected).length ≠ parts.length then
    some (.wrongCount link parts.length (positions expected).length)
  else
    let missing := (parts.map (·.1)).filter fun k => (expected.lookup k).isNone
    if missing ≠ [] then some (.noPosition link missing) else none

/-! ## the writes -/

/-- Both unique indexes of the mapping. -/
def sameLink (r r' : MessageLink) : Bool := MessageMap.sameMax r r' || MessageMap.sameTelegram r r'

/-- `_claim_canonical`. -/
def claimCanonical (column : IdColumn) (link : Nat) (value : Int) (m : MessageMap) :
    Except AlbumSettlementError MessageMap :=
  match m.claim sameLink column.freeLink column.writeLink link value with
  | .ok m => .ok m
  | .error .taken => .error (.canonicalTaken link column.name value)
  | .error .differs => .error (.canonicalDiffers link column.name value)

/-- `_claim_part`. -/
def claimPart (column : IdColumn) (part link : Nat) (index value : Int) (g : MediaGroups) :
    Except AlbumSettlementError MediaGroups :=
  match g.claim MediaGroups.samePart column.freePart column.writePart part value with
  | .ok g => .ok g
  | .error .taken => .error (.partTaken link index column.name value)
  | .error .differs => .error (.partDiffers link index column.name)

/-- The loop over the receipt; a position without an alias is passed over. -/
def claimParts (column : IdColumn) (link : Nat) (expected : List (Int × Nat)) :
    Receipt → MediaGroups → Except AlbumSettlementError MediaGroups
  | [], g => .ok g
  | (index, value) :: rest, g =>
      match expected.lookup index with
      | none => claimParts column link expected rest g
      | some part =>
          match claimPart column part link index value g with
          | .ok g => claimParts column link expected rest g
          | .error e => .error e

/-- What runs between `BEGIN` and `COMMIT`. -/
def body (column : IdColumn) (link : Nat) (head : Int) (parts : Receipt) (db : AlbumDb) :
    Except AlbumSettlementError AlbumDb :=
  let expected := expected db.albums link
  match if expected ≠ [] then matchParts expected parts link else none with
  | some e => .error e
  | none =>
      match claimCanonical column link head db.map with
      | .error e => .error e
      | .ok map =>
          match claimParts column link expected parts db.albums with
          | .error e => .error e
          | .ok albums => .ok ⟨map, albums⟩

/-- The id that stands for the whole message; the check has refused an empty receipt. -/
def head (parts : Receipt) : Int := (parts.map (·.2)).headD 0

def settleAlbum (column : IdColumn) (link : Nat) (parts : Receipt) (db : AlbumDb) :
    AlbumDb × Option AlbumSettlementError :=
  match checkReceipt parts with
  | some e => (db, some e)
  | none => transaction (body column link (head parts) parts) db

/-- `settle_bot_album`. -/
def settleBotAlbum (link : Nat) (parts : Receipt) (db : AlbumDb) :
    AlbumDb × Option AlbumSettlementError :=
  settleAlbum .bot link parts db

/-- `settle_owner_album`. -/
def settleOwnerAlbum (link : Nat) (account : Int) (parts : Receipt) (db : AlbumDb) :
    AlbumDb × Option AlbumSettlementError :=
  settleAlbum (.owner account) link parts db

/-! ## what the checks leave -/

/-- `(0, m₀), (1, m₁), …` with `0 < m₀ < m₁ < …`. -/
structure Covering (parts : Receipt) : Prop where
  nonempty : parts ≠ []
  indexes : parts.map (·.1) = (List.range parts.length).map Int.ofNat
  positive : ∀ m ∈ parts.map (·.2), 0 < m
  ascending : (parts.map (·.2)).Pairwise (· < ·)

theorem checkReceipt_eq_none {parts : Receipt} : checkReceipt parts = none ↔ Covering parts := by
  have hsorted : ((List.range parts.length).map Int.ofNat).insertionSort (· ≤ ·) =
      (List.range parts.length).map Int.ofNat :=
    (List.pairwise_map.mpr (List.pairwise_lt_range.imp fun hlt =>
      Int.ofNat_le.mpr (Nat.le_of_lt hlt))).insertionSort_eq
  unfold checkReceipt
  constructor
  · intro h
    simp only [Bool.or_eq_true, decide_eq_true_eq] at h
    split at h
    · cases h
    split at h
    · cases h
    split at h
    · cases h
    split at h
    · cases h
    split at h
    · cases h
    next hempty hrange hdup hpos hasc =>
      refine ⟨by simpa using hempty, by_contra fun hne => hrange (.inr hne), ?_, ?_⟩
      · intro m hm
        by_contra hle
        exact hpos (List.any_eq_true.mpr ⟨m, hm, by simpa using hle⟩)
      · exact List.isChain_iff_pairwise.mp (not_not.mp hasc)
  · intro h
    have hempty : parts.isEmpty = false := by simpa using h.nonempty
    have hnodup : (parts.map (·.2)).Nodup := h.ascending.imp Int.ne_of_lt
    have hpos : (parts.map (·.2)).any (· ≤ 0) = false := by
      rw [List.any_eq_false]
      intro m hm
      simpa using h.positive m hm
    have hasc : (parts.map (·.2)).IsChain (· < ·) := List.isChain_iff_pairwise.mpr h.ascending
    simp only [hempty, h.indexes, hsorted, hnodup.dedup, hpos, hasc, ne_eq, not_true_eq_false,
      decide_false, Bool.or_false, Bool.false_eq_true, if_false]

variable {column : IdColumn} {link : Nat} {parts : Receipt} {g : MediaGroups} {db db' : AlbumDb}

theorem Covering.nodup_indexes (h : Covering parts) : (parts.map (·.1)).Nodup := by
  rw [h.indexes]
  exact List.nodup_range.map fun _ _ => Int.ofNat.inj

theorem Covering.nodup_ids (h : Covering parts) : (parts.map (·.2)).Nodup := h.ascending.imp Int.ne_of_lt

/-- The aliases a receipt is written to, each with its id. -/
def targets (expected : List (Int × Nat)) (parts : Receipt) : List (Nat × Int) :=
  parts.filterMap fun x => (expected.lookup x.1).map fun part => (part, x.2)

theorem mem_expected {k : Int} {i : Nat} :
    (k, i) ∈ expected g link ↔
      ∃ p, g.get? i = some p ∧ p.linkId = some link ∧ p.partIndex.map Int.ofNat = some k := by
  simp only [expected, List.mem_filterMap, List.mem_reverse, Option.map_eq_some_iff, Prod.mk.injEq]
  constructor
  · rintro ⟨⟨j, p⟩, hmem, n, hn, rfl, rfl⟩
    obtain ⟨hp, hlink⟩ := Table.mem_select.mp hmem
    exact ⟨p, hp, beq_iff_eq.mp hlink, n, hn, rfl⟩
  · rintro ⟨p, hp, hlink, n, hn, rfl⟩
    exact ⟨(i, p), Table.mem_select.mpr ⟨hp, beq_iff_eq.mpr hlink⟩, n, hn, rfl, rfl⟩

theorem mem_of_lookup {k : Int} {i : Nat} (h : (expected g link).lookup k = some i) :
    (k, i) ∈ expected g link := by
  obtain ⟨l₁, l₂, heq, -⟩ := List.lookup_eq_some_iff.mp h
  rw [heq]
  exact List.mem_append_right _ List.mem_cons_self

/-- A row has one position, so two parts are never written to one row. -/
theorem Covering.nodup_targets (h : Covering parts) :
    ((targets (expected g link) parts).map (·.1)).Nodup := by
  refine List.pairwise_map.mpr (List.pairwise_filterMap.mpr ?_)
  refine (List.pairwise_map.mp h.nodup_indexes).imp fun {x y} hne => ?_
  rintro ⟨i, m⟩ hx ⟨j, m'⟩ hy heq
  simp only [Option.map_eq_some_iff, Prod.mk.injEq] at hx hy heq
  obtain ⟨i, hi, rfl, rfl⟩ := hx
  obtain ⟨j, hj, rfl, rfl⟩ := hy
  obtain ⟨p, hp, -, hk⟩ := mem_expected.mp (mem_of_lookup hi)
  obtain ⟨q, hq, -, hk'⟩ := mem_expected.mp (mem_of_lookup hj)
  rw [heq, hq, Option.some.injEq] at hp
  rw [hp, hk, Option.some.injEq] at hk'
  exact hne hk'

theorem Covering.nodup_values (h : Covering parts) (exp : List (Int × Nat)) :
    ((targets exp parts).map (·.2)).Nodup := by
  refine List.pairwise_map.mpr (List.pairwise_filterMap.mpr ?_)
  refine (List.pairwise_map.mp h.nodup_ids).imp fun {x y} hne => ?_
  rintro ⟨i, m⟩ hx ⟨j, m'⟩ hy
  simp only [Option.map_eq_some_iff, Prod.mk.injEq] at hx hy
  obtain ⟨i, -, rfl, rfl⟩ := hx
  obtain ⟨j, -, rfl, rfl⟩ := hy
  exact hne

/-- The loop claims its targets one after the other. -/
theorem claimParts_eq_ok {exp : List (Int × Nat)} {g' : MediaGroups} :
    claimParts column link exp parts g = .ok g' ↔
      Table.claimAll MediaGroups.samePart column.freePart column.writePart (targets exp parts) g =
        .ok g' := by
  induction parts generalizing g with
  | nil => simp [claimParts, targets, Table.claimAll]
  | cons x rest ih =>
      obtain ⟨k, m⟩ := x
      cases hk : exp.lookup k with
      | none => simpa [claimParts, targets, hk] using ih
      | some i =>
          have htargets : targets exp ((k, m) :: rest) = (i, m) :: targets exp rest := by
            simp [targets, hk]
          rw [htargets]
          simp only [claimParts, hk, claimPart, Table.claimAll]
          rcases g.claim MediaGroups.samePart column.freePart column.writePart i m with
            (_ | _) | g₁
          · simp
          · simp
          · exact ih

/-- Two ids are never confused by an index, whatever else a row carries. -/
theorem independent (column : IdColumn) :
    Table.Independent MediaGroups.samePart column.freePart column.writePart := by
  intro x y p q hne hfree
  have hxy : (x == y) = false := beq_false_of_ne hne
  cases column with
  | bot =>
      have hp : (some x == p.telegramMessageId) = false := by
        rcases (Bool.or_eq_true _ _).mp hfree with h | h
        · simp [Option.isNone_iff_eq_none.mp h]
        · simp [beq_iff_eq.mp h, hxy]
      simp [MediaGroups.samePart, IdColumn.writePart, hp, hxy]
  | owner account =>
      have hp : (some x == p.telegramOwnerMessageId) = false := by
        rcases (Bool.or_eq_true _ _).mp hfree with h | h
        · simp [Option.isNone_iff_eq_none.mp h]
        · simp [beq_iff_eq.mp h, hxy]
      simp [MediaGroups.samePart, IdColumn.writePart, hp, hxy]

/-! ## when a settlement is accepted, and what it writes -/

/-- The checks pass, and every row that is to be written may be. -/
def accepts (column : IdColumn) (link : Nat) (parts : Receipt) (db : AlbumDb) : Bool :=
  let exp := expected db.albums link
  (checkReceipt parts).isNone && (exp.isEmpty || (matchParts exp parts link).isNone) &&
    db.map.claimable sameLink column.freeLink column.writeLink link (head parts) &&
    (targets exp parts).all fun c =>
      db.albums.claimable MediaGroups.samePart column.freePart column.writePart c.1 c.2

def written (column : IdColumn) (link : Nat) (parts : Receipt) (db : AlbumDb) : AlbumDb where
  map := db.map.modify link (column.writeLink (head parts))
  albums := Table.claimed column.writePart (targets (expected db.albums link) parts) db.albums

theorem accepts_iff : accepts column link parts db = true ↔
    Covering parts ∧
      (expected db.albums link ≠ [] → matchParts (expected db.albums link) parts link = none) ∧
      db.map.claimable sameLink column.freeLink column.writeLink link (head parts) = true ∧
      ∀ c ∈ targets (expected db.albums link) parts,
        db.albums.claimable MediaGroups.samePart column.freePart column.writePart c.1 c.2 =
          true := by
  simp only [accepts, Bool.and_eq_true, Option.isNone_iff_eq_none, checkReceipt_eq_none,
    Bool.or_eq_true, List.isEmpty_iff, List.all_eq_true, and_assoc, ne_eq, imp_iff_not_or, not_not]

theorem claimCanonical_eq_ok {m m' : MessageMap} {value : Int} :
    claimCanonical column link value m = .ok m' ↔
      m.claimable sameLink column.freeLink column.writeLink link value = true ∧
        m' = m.modify link (column.writeLink value) := by
  rw [← Table.claim_eq_ok_iff, claimCanonical]
  rcases m.claim sameLink column.freeLink column.writeLink link value with (_ | _) | m₁ <;> simp

theorem body_eq_ok (hcov : Covering parts) :
    body column link (head parts) parts db = .ok db' ↔
      accepts column link parts db = true ∧ db' = written column link parts db := by
  rw [accepts_iff]
  simp only [hcov, true_and, body]
  cases hmatch : if expected db.albums link ≠ [] then
      matchParts (expected db.albums link) parts link else none with
  | some e =>
      have hno : ¬ (expected db.albums link ≠ [] →
          matchParts (expected db.albums link) parts link = none) := by
        intro h
        split at hmatch
        · next hne =>
            rw [h hne] at hmatch
            cases hmatch
        · cases hmatch
      simp [hno]
  | none =>
      have hyes : expected db.albums link ≠ [] →
          matchParts (expected db.albums link) parts link = none := by
        intro hne
        rwa [if_pos hne] at hmatch
      cases hcan : claimCanonical column link (head parts) db.map with
      | error e =>
          have hno : ¬ db.map.claimable sameLink column.freeLink column.writeLink link
              (head parts) = true := by
            intro h
            rw [claimCanonical_eq_ok.mpr ⟨h, rfl⟩] at hcan
            cases hcan
          simp [hno]
      | ok m =>
          obtain ⟨hclaim, rfl⟩ := claimCanonical_eq_ok.mp hcan
          have hall (g' : MediaGroups) := (Table.claimAll_eq_ok_iff (t := db.albums)
            (independent column) hcov.nodup_targets (hcov.nodup_values (expected db.albums link)) :
              _ = Except.ok g' ↔ _)
          cases hparts : claimParts column link (expected db.albums link) parts db.albums with
          | error e =>
              have hno : ¬ ∀ c ∈ targets (expected db.albums link) parts,
                  db.albums.claimable MediaGroups.samePart column.freePart column.writePart
                    c.1 c.2 = true := by
                intro h
                rw [claimParts_eq_ok.mpr ((hall _).mpr ⟨h, rfl⟩)] at hparts
                cases hparts
              simp only [reduceCtorEq, hno, and_false, false_and]
          | ok g =>
              obtain ⟨hok, rfl⟩ := (hall _).mp (claimParts_eq_ok.mp hparts)
              rw [Except.ok.injEq, eq_comm]
              exact (and_iff_right ⟨hyes, hclaim, hok⟩).symm

/-- **What a settlement does**: everything, or nothing. -/
theorem settleAlbum_eq_none : settleAlbum column link parts db = (db', none) ↔
    accepts column link parts db = true ∧ db' = written column link parts db := by
  unfold settleAlbum
  cases hcheck : checkReceipt parts with
  | some e =>
      have hno : ¬ Covering parts := by simp [← checkReceipt_eq_none, hcheck]
      simp [accepts_iff, hno]
  | none =>
      rw [transaction_eq_none]
      exact body_eq_ok (checkReceipt_eq_none.mp hcheck)

theorem settleAlbum_refused {e : AlbumSettlementError}
    (h : settleAlbum column link parts db = (db', some e)) : db' = db := by
  unfold settleAlbum transaction at h
  split at h
  · exact (congrArg Prod.fst h).symm
  · split at h
    · cases h
    · exact (congrArg Prod.fst h).symm

/-! ## what was written -/

theorem expected_modify {i : Nat} {m : Int} :
    expected (g.modify i (column.writePart m)) link = expected g link := by
  have hrow : ∀ x : Nat × MediaGroupPart,
      (if x.1 == i then column.writePart m x.2 else x.2).partIndex = x.2.partIndex := by
    intro x
    split <;> simp
  have hselect : (g.modify i (column.writePart m)).select (fun _ p => p.linkId == some link) =
      (g.select fun _ p => p.linkId == some link).map fun x =>
        (x.1, if x.1 == i then column.writePart m x.2 else x.2) :=
    Table.select_modify fun _ p => by simp
  simp only [expected, hselect, ← List.map_reverse, List.filterMap_map, Function.comp_def, hrow]

/-- The positions of an album are not rewritten. -/
@[simp] theorem expected_claimed (todo : List (Nat × Int)) :
    expected (Table.claimed column.writePart todo g) link = expected g link := by
  induction todo generalizing g with
  | nil => rfl
  | cons c rest ih => exact ih.trans expected_modify

theorem find_of_mem {todo : List (Nat × Int)} (h : (todo.map (·.1)).Nodup) {c : Nat × Int}
    (hc : c ∈ todo) : (todo.find? fun c' => c'.1 == c.1) = some c := by
  induction todo with
  | nil => cases hc
  | cons c' rest ih =>
      obtain ⟨hnot, hrest⟩ := List.nodup_cons.mp h
      rcases List.mem_cons.mp hc with rfl | hmem
      · simp
      · have hne : c'.1 ≠ c.1 := fun heq =>
          hnot (List.mem_map.mpr ⟨c, hmem, heq.symm⟩)
        simpa [hne] using ih hrest hmem

/-- An alias that is written carries its id afterwards. -/
theorem Covering.get?_target (h : Covering parts) {c : Nat × Int}
    (hc : c ∈ targets (expected g link) parts) :
    (Table.claimed column.writePart (targets (expected g link) parts) g).get? c.1 =
      (g.get? c.1).map (column.writePart c.2) := by
  rw [Table.get?_claimed h.nodup_targets, find_of_mem h.nodup_targets hc]

theorem Covering.get?_other (h : Covering parts) {i : Nat}
    (hi : ∀ m, (i, m) ∉ targets (expected g link) parts) :
    (Table.claimed column.writePart (targets (expected g link) parts) g).get? i = g.get? i := by
  have hnone : (targets (expected g link) parts).find? (fun c => c.1 == i) = none :=
    List.find?_eq_none.mpr fun c hc hci => hi c.2 (by rwa [← beq_iff_eq.mp hci])
  rw [Table.get?_claimed h.nodup_targets, hnone]

theorem sameLink_comm (r r' : MessageLink) : sameLink r r' = sameLink r' r := by
  rw [Bool.eq_iff_iff]
  simp only [sameLink, MessageMap.sameMax, MessageMap.sameTelegram, Bool.or_eq_true,
    Bool.and_eq_true, beq_iff_eq]
  grind

theorem samePart_comm (p q : MediaGroupPart) :
    MediaGroups.samePart p q = MediaGroups.samePart q p := by
  rw [Bool.eq_iff_iff]
  simp only [MediaGroups.samePart, Bool.or_eq_true, Bool.and_eq_true, beq_iff_eq]
  grind

/-- Settling twice is settling once. -/
theorem settleAlbum_written (hmap : db.map.Indexed sameLink)
    (halbums : db.albums.Indexed MediaGroups.samePart)
    (h : accepts column link parts db = true) :
    settleAlbum column link parts (written column link parts db) =
      (written column link parts db, none) := by
  obtain ⟨hcov, hmatch, hcan, hparts⟩ := accepts_iff.mp h
  have hmap' : (written column link parts db).map.Indexed sameLink := by
    refine hmap.modify sameLink_comm fun r hr => ?_
    simp only [Table.claimable, hr, Option.any_some, Bool.and_eq_true, Bool.not_eq_true'] at hcan
    exact hcan.2
  have halbums' : (written column link parts db).albums.Indexed MediaGroups.samePart :=
    halbums.claimAll samePart_comm
      ((Table.claimAll_eq_ok_iff (independent column) hcov.nodup_targets
        (hcov.nodup_values _)).mpr ⟨hparts, rfl⟩)
  have hlink : ∀ r, (written column link parts db).map.get? link = some r →
      column.identityLink r = some (column.named (head parts)) := by
    intro r hr
    obtain ⟨r₀, -, rfl⟩ := Option.map_eq_some_iff.mp ((Table.get?_modify_self _ _ _).symm.trans hr)
    exact IdColumn.identityLink_writeLink r₀
  have hpart : ∀ c ∈ targets (expected db.albums link) parts, ∀ p,
      (written column link parts db).albums.get? c.1 = some p →
        column.identityPart p = some (column.named c.2) := by
    intro c hc p hp
    obtain ⟨p₀, -, rfl⟩ := Option.map_eq_some_iff.mp ((hcov.get?_target hc).symm.trans hp)
    exact IdColumn.identityPart_writePart p₀
  have hexp : expected (written column link parts db).albums link = expected db.albums link :=
    expected_claimed _
  refine settleAlbum_eq_none.mpr ⟨accepts_iff.mpr ⟨hcov, ?_, ?_, ?_⟩, ?_⟩
  · rwa [hexp]
  · obtain ⟨r, hr, -⟩ := (Option.any_eq_true _ _).mp hcan
    have hr' : (written column link parts db).map.get? link =
        some (column.writeLink (head parts) r) := by
      rw [written, Table.get?_modify_self, hr, Option.map_some]
    exact hmap'.claimable hr' (IdColumn.freeLink_writeLink r) (IdColumn.writeLink_eq (hlink _ hr'))
  · rw [hexp]
    intro c hc
    obtain ⟨p, hp, -⟩ := (Option.any_eq_true _ _).mp (hparts c hc)
    have hp' : (written column link parts db).albums.get? c.1 =
        some (column.writePart c.2 p) := by
      rw [written, hcov.get?_target hc, hp, Option.map_some]
    exact halbums'.claimable hp' (IdColumn.freePart_writePart p)
      (IdColumn.writePart_eq (hpart c hc _ hp'))
  · have hmapEq := Table.modify_eq_self fun r hr => IdColumn.writeLink_eq (hlink r hr)
    have halbumsEq := Table.claimed_eq_self fun c hc p hp => IdColumn.writePart_eq (hpart c hc p hp)
    have hagain : written column link parts (written column link parts db) =
        ⟨(written column link parts db).map.modify link (column.writeLink (head parts)),
          Table.claimed column.writePart
            (targets (expected (written column link parts db).albums link) parts)
            (written column link parts db).albums⟩ := rfl
    rw [hagain, hexp, halbumsEq, hmapEq]

/-! ## all or nothing -/

/-- What a settlement that returned has to leave. -/
structure Settled (column : IdColumn) (link : Nat) (parts : Receipt) (db db' : AlbumDb) : Prop where
  covering : Covering parts
  canonical : ∃ r, db'.map.get? link = some r ∧
    column.identityLink r = some (column.named (head parts))
  aliases : ∀ i p k, db'.albums.get? i = some p → p.linkId = some link → p.partIndex = some k →
    ∃ m, (Int.ofNat k, m) ∈ parts ∧ column.identityPart p = some (column.named m)
  /-- Whatever carried an identity is as it was. -/
  keptLinks : ∀ i r, db.map.get? i = some r → (column.identityLink r).isSome → db'.map.get? i = some r
  keptParts : ∀ i p, db.albums.get? i = some p → (column.identityPart p).isSome →
    db'.albums.get? i = some p

/-- A settlement raises and leaves the tables alone, or binds the whole album and
would do nothing more a second time. -/
def SettlesWhole (settle : AlbumDb → AlbumDb × Option AlbumSettlementError) (column : IdColumn)
    (link : Nat) (parts : Receipt) (db : AlbumDb) : Prop :=
  match settle db with
  | (db', some _) => db' = db
  | (db', none) => Settled column link parts db db' ∧ settle db' = (db', none)

/-- The aliases of a mapping row that another row of their position hides. -/
def shadowed (g : MediaGroups) (link : Nat) : List (Int × MediaGroupPart) :=
  (g.select fun _ p => p.linkId == some link).filterMap fun x =>
    (x.2.partIndex.map Int.ofNat).bind fun k =>
      if (expected g link).lookup k == some x.1 then none else some (k, x.2)

/-- No row that is written carries the id under another account, and every hidden
alias carries the id of its position already. -/
def keepsAll (column : IdColumn) (link : Nat) (parts : Receipt) (db : AlbumDb) : Bool :=
  let agrees (carried : Option (Option Int × Int)) (m : Int) :=
    carried.isNone || carried == some (column.named m)
  ((db.map.get? link).all fun r => agrees (column.identityLink r) (head parts)) &&
    ((targets (expected db.albums link) parts).all fun c =>
      (db.albums.get? c.1).all fun p => agrees (column.identityPart p) c.2) &&
    (shadowed db.albums link).all fun x =>
      parts.any fun y => y.1 == x.1 && column.identityPart x.2 == some (column.named y.2)

theorem mem_shadowed {k : Int} {p : MediaGroupPart} :
    (k, p) ∈ shadowed g link ↔ ∃ i, g.get? i = some p ∧ p.linkId = some link ∧
      p.partIndex.map Int.ofNat = some k ∧ (expected g link).lookup k ≠ some i := by
  simp only [shadowed, List.mem_filterMap, Option.bind_eq_some_iff, Prod.exists]
  constructor
  · rintro ⟨i, q, hmem, k', hk', hif⟩
    split at hif
    · cases hif
    · next hne =>
        obtain ⟨rfl, rfl⟩ := Prod.mk.inj (Option.some.inj hif)
        obtain ⟨hq, hlink⟩ := Table.mem_select.mp hmem
        exact ⟨i, hq, beq_iff_eq.mp hlink, hk', by simpa using hne⟩
  · rintro ⟨i, hp, hlink, hk, hne⟩
    exact ⟨i, p, Table.mem_select.mpr ⟨hp, beq_iff_eq.mpr hlink⟩, k, hk,
      by rw [if_neg (by simpa using hne)]⟩

/-- A row agrees with an id when it carries no identity or that one. -/
theorem agrees_iff {carried : Option (Option Int × Int)} {m : Int} :
    (carried.isNone || carried == some (column.named m)) = true ↔
      ∀ x, carried = some x → x = column.named m := by
  cases carried <;> simp

theorem keepsAll_iff : keepsAll column link parts db = true ↔
    (∀ r, db.map.get? link = some r → ∀ x, column.identityLink r = some x →
      x = column.named (head parts)) ∧
    (∀ c ∈ targets (expected db.albums link) parts, ∀ p, db.albums.get? c.1 = some p →
      ∀ x, column.identityPart p = some x → x = column.named c.2) ∧
    ∀ k p, (k, p) ∈ shadowed db.albums link →
      ∃ m, (k, m) ∈ parts ∧ column.identityPart p = some (column.named m) := by
  have hshadow : ∀ k p, (parts.any fun y =>
      y.1 == k && column.identityPart p == some (column.named y.2)) = true ↔
      ∃ m, (k, m) ∈ parts ∧ column.identityPart p = some (column.named m) := by
    intro k p
    simp only [List.any_eq_true, Bool.and_eq_true, beq_iff_eq, Prod.exists]
    constructor
    · rintro ⟨_, m, hmem, rfl, hid⟩
      exact ⟨m, hmem, hid⟩
    · rintro ⟨m, hmem, hid⟩
      exact ⟨k, m, hmem, rfl, hid⟩
  simp only [keepsAll, Bool.and_eq_true, Option.all_eq_true, agrees_iff, List.all_eq_true,
    hshadow, Prod.forall, and_assoc]

/-- Every alias of the mapping row is at a position of the receipt. -/
theorem mem_of_matched (hcov : Covering parts)
    (hmatch : matchParts (expected g link) parts link = none) {k : Int} {i : Nat}
    (hk : (k, i) ∈ expected g link) : ∃ m, (k, m) ∈ parts := by
  have hlen : (positions (expected g link)).length = parts.length := by
    by_contra hne
    simp [matchParts, hne] at hmatch
  have hfound : ∀ k ∈ parts.map (·.1), k ∈ positions (expected g link) := by
    intro k hk
    by_contra hno
    have hnone : (expected g link).lookup k = none := by
      rw [List.lookup_eq_none_iff]
      intro x hx
      have hne : k ≠ x.1 := fun heq => hno (List.mem_dedup.mpr (List.mem_map.mpr ⟨x, hx, heq.symm⟩))
      simpa using hne
    have hmissing : k ∈ (parts.map (·.1)).filter fun k => ((expected g link).lookup k).isNone := by
      simp [List.mem_filter, hk, hnone]
    have hne := List.ne_nil_of_mem hmissing
    simp only [matchParts, hlen, ne_eq, not_true_eq_false, if_false, hne, not_false_eq_true,
      if_true, reduceCtorEq] at hmatch
  have hperm : (parts.map (·.1)).Perm (positions (expected g link)) :=
    (List.subperm_of_subset hcov.nodup_indexes hfound).perm_of_length_le (by simp [hlen])
  have hmem : k ∈ parts.map (·.1) :=
    hperm.mem_iff.mpr (List.mem_dedup.mpr (List.mem_map.mpr ⟨(k, i), hk, rfl⟩))
  obtain ⟨⟨k', m⟩, hpart, rfl⟩ := List.mem_map.mp hmem
  exact ⟨m, hpart⟩

theorem mem_targets {i : Nat} {m : Int} :
    (i, m) ∈ targets (expected g link) parts ↔
      ∃ k, (k, m) ∈ parts ∧ (expected g link).lookup k = some i := by
  simp only [targets, List.mem_filterMap, Option.map_eq_some_iff, Prod.mk.injEq, Prod.exists]
  constructor
  · rintro ⟨k, m, hmem, i, hk, rfl, rfl⟩
    exact ⟨k, hmem, hk⟩
  · rintro ⟨k, hmem, hk⟩
    exact ⟨k, m, hmem, i, hk, rfl, rfl⟩

/-- The alias that is written at a position is the one there. -/
theorem lookup_of_target {i : Nat} {m k : Int} {p : MediaGroupPart}
    (hmem : (i, m) ∈ targets (expected g link) parts) (hp : g.get? i = some p)
    (hk : p.partIndex.map Int.ofNat = some k) :
    (k, m) ∈ parts ∧ (expected g link).lookup k = some i := by
  obtain ⟨k', hpart, hlookup⟩ := mem_targets.mp hmem
  obtain ⟨p', hp', -, hk'⟩ := mem_expected.mp (mem_of_lookup hlookup)
  rw [hp, Option.some.injEq] at hp'
  rw [← hp', hk, Option.some.injEq] at hk'
  exact hk' ▸ ⟨hpart, hlookup⟩

theorem settled_of_keepsAll (h : accepts column link parts db = true)
    (hkeeps : keepsAll column link parts db = true) :
    Settled column link parts db (written column link parts db) := by
  obtain ⟨hcov, hmatch, hcan, -⟩ := accepts_iff.mp h
  obtain ⟨hlink, hparts, hshadow⟩ := keepsAll_iff.mp hkeeps
  refine ⟨hcov, ?_, ?_, ?_, ?_⟩
  · obtain ⟨r, hr, -⟩ := (Option.any_eq_true _ _).mp hcan
    exact ⟨column.writeLink (head parts) r, by rw [written, Table.get?_modify_self, hr]; rfl,
      IdColumn.identityLink_writeLink r⟩
  · intro i p k hp hpl hpk
    by_cases htarget : ∃ m, (i, m) ∈ targets (expected db.albums link) parts
    · obtain ⟨m, hm⟩ := htarget
      obtain ⟨p₀, hp₀, rfl⟩ := Option.map_eq_some_iff.mp ((hcov.get?_target hm).symm.trans hp)
      have hk : p₀.partIndex.map Int.ofNat = some (Int.ofNat k) := by
        have hindex : (column.writePart m p₀).partIndex = p₀.partIndex :=
          IdColumn.writePart_partIndex p₀
        rw [← hindex, hpk]
        rfl
      exact ⟨m, (lookup_of_target hm hp₀ hk).1, IdColumn.identityPart_writePart p₀⟩
    · have hp₀ : db.albums.get? i = some p :=
        (hcov.get?_other fun m hm => htarget ⟨m, hm⟩).symm.trans hp
      have hexp : (Int.ofNat k, i) ∈ expected db.albums link :=
        mem_expected.mpr ⟨p, hp₀, hpl, by rw [hpk]; rfl⟩
      obtain ⟨m, hm⟩ := mem_of_matched hcov (hmatch (List.ne_nil_of_mem hexp)) hexp
      exact hshadow _ p (mem_shadowed.mpr ⟨i, hp₀, hpl, by rw [hpk]; rfl,
        fun hlookup => htarget ⟨m, mem_targets.mpr ⟨_, hm, hlookup⟩⟩⟩)
  · intro i r hr hid
    obtain ⟨x, hx⟩ := Option.isSome_iff_exists.mp hid
    by_cases hi : i = link
    · subst hi
      rw [written, Table.get?_modify_self, hr, Option.map_some,
        IdColumn.writeLink_eq (hx.trans (congrArg some (hlink r hr x hx)))]
    · rw [written, Table.get?_modify_ne _ _ hi, hr]
  · intro i p hp hid
    obtain ⟨x, hx⟩ := Option.isSome_iff_exists.mp hid
    by_cases htarget : ∃ m, (i, m) ∈ targets (expected db.albums link) parts
    · obtain ⟨m, hm⟩ := htarget
      rw [written, hcov.get?_target hm, hp, Option.map_some,
        IdColumn.writePart_eq (hx.trans (congrArg some (hparts _ hm p hp x hx)))]
    · rw [written, hcov.get?_other fun m hm => htarget ⟨m, hm⟩, hp]

theorem keepsAll_of_settled (h : accepts column link parts db = true)
    (hsettled : Settled column link parts db (written column link parts db)) :
    keepsAll column link parts db = true := by
  obtain ⟨hcov, -, -, -⟩ := accepts_iff.mp h
  refine keepsAll_iff.mpr ⟨?_, ?_, ?_⟩
  · intro r hr x hx
    have hkept := hsettled.keptLinks link r hr (by rw [hx]; rfl)
    rw [written, Table.get?_modify_self, hr, Option.map_some, Option.some.injEq] at hkept
    rw [← hkept, IdColumn.identityLink_writeLink] at hx
    exact (Option.some.inj hx).symm
  · intro c hc p hp x hx
    have hkept := hsettled.keptParts c.1 p hp (by rw [hx]; rfl)
    rw [written, hcov.get?_target hc, hp, Option.map_some, Option.some.injEq] at hkept
    rw [← hkept, IdColumn.identityPart_writePart] at hx
    exact (Option.some.inj hx).symm
  · intro k p hmem
    obtain ⟨i, hp, hpl, hpk, hne⟩ := mem_shadowed.mp hmem
    obtain ⟨n, hn, rfl⟩ := Option.map_eq_some_iff.mp hpk
    have hp' : (written column link parts db).albums.get? i = some p := by
      rw [written, hcov.get?_other, hp]
      exact fun m hm => hne (lookup_of_target hm hp hpk).2
    exact hsettled.aliases i p n hp' hpl hn

/-- **A settlement is all or nothing** iff, when it is accepted, it meets no row
that carries the id under another account and no alias hidden at its position. -/
theorem settlesWhole_iff (hmap : db.map.Indexed sameLink)
    (halbums : db.albums.Indexed MediaGroups.samePart) :
    SettlesWhole (settleAlbum column link parts) column link parts db ↔
      (accepts column link parts db = true → keepsAll column link parts db = true) := by
  unfold SettlesWhole
  cases hres : settleAlbum column link parts db with
  | mk db' e =>
      cases e with
      | some e =>
          have hno : ¬ accepts column link parts db = true := by
            intro h
            rw [settleAlbum_eq_none.mpr ⟨h, rfl⟩] at hres
            cases hres
          exact iff_of_true (settleAlbum_refused hres) fun h => absurd h hno
      | none =>
          obtain ⟨h, rfl⟩ := settleAlbum_eq_none.mp hres
          constructor
          · rintro ⟨hsettled, -⟩ -
            exact keepsAll_of_settled h hsettled
          · intro hkeeps
            exact ⟨settled_of_keepsAll h (hkeeps h), settleAlbum_written hmap halbums h⟩

end AlbumSettlement

open AlbumSettlement

/-- Both settlements. -/
theorem album_settlement {link : Nat} {account : Int} {parts : Receipt} {db : AlbumDb}
    (hmap : db.map.Indexed sameLink) (halbums : db.albums.Indexed MediaGroups.samePart) :
    (SettlesWhole (settleBotAlbum link parts) .bot link parts db ↔
      (accepts .bot link parts db = true → keepsAll .bot link parts db = true)) ∧
    (SettlesWhole (settleOwnerAlbum link account parts) (.owner account) link parts db ↔
      (accepts (.owner account) link parts db = true →
        keepsAll (.owner account) link parts db = true)) :=
  ⟨settlesWhole_iff hmap halbums, settlesWhole_iff hmap halbums⟩

/-- A row of the mapping that carries the owner's id 31 under account 8. -/
private def ownedByEight : AlbumDb where
  map := Table.empty.insert
    { bridgeName := "bridge", maxChatId := 9, maxMessageId := some 500, telegramBotId := 5,
      telegramChatId := 100, direction := .maxToTg, sourceMarker := .fromMax, createdAt := 1,
      telegramOwnerMessageId := some 31, telegramOwnerAccountId := some 8 }
  albums := Table.empty

theorem album_settlement_owned :
    ¬ SettlesWhole (settleOwnerAlbum 1 7 [(0, 31), (1, 32)]) (.owner 7) 1 [(0, 31), (1, 32)]
      ownedByEight ∧
    SettlesWhole (settleOwnerAlbum 1 8 [(0, 31), (1, 32)]) (.owner 8) 1 [(0, 31), (1, 32)]
      ownedByEight :=
  ⟨fun h => absurd ((album_settlement (by decide) (by decide)).2.mp h (by decide)) (by decide),
    (album_settlement (by decide) (by decide)).2.mpr fun _ => by decide⟩

/-- Account 7 overwrites the identity that account 8 wrote. -/
theorem not_settlesWhole :
    ¬ ∀ (link : Nat) (account : Int) (parts : Receipt) (db : AlbumDb),
      db.map.Indexed sameLink → db.albums.Indexed MediaGroups.samePart →
        SettlesWhole (settleBotAlbum link parts) .bot link parts db ∧
        SettlesWhole (settleOwnerAlbum link account parts) (.owner account) link parts db := by
  intro h
  have hsettled : Settled (.owner 7) 1 [(0, 31), (1, 32)] ownedByEight
      (settleOwnerAlbum 1 7 [(0, 31), (1, 32)] ownedByEight).1 :=
    ((h 1 7 [(0, 31), (1, 32)] ownedByEight (by decide) (by decide)).2 :).1
  have hkept := hsettled.keptLinks 1 _ rfl rfl
  exact absurd hkept (by decide)

end Telemax
