import Telemax.Lib.Rely

/-!
# Telemax.MaxClient.StateFiles

A state file and the copy kept beside it.  `write_atomic` moves what the primary
holds into the copy before it replaces the primary; `read_with_backup` reads the
primary, or else the copy.  Every replace is atomic; between any two file
operations the machine may stop, and the primary may go bad.

A text is known by what the readers of the standard library make of it: a JSON
object, an integer, or neither.
-/

namespace Telemax.MaxClient

inductive Document
  | object (fields : List (String × String))
  | number (n : Int)
  | other (raw : String)
  deriving DecidableEq, Repr

/-- What stands at a path. -/
inductive Contents
  | absent
  /-- The operating system refuses to read it. -/
  | unreadable
  /-- Bytes that are no UTF-8. -/
  | undecodable
  | text (doc : Document)
  deriving DecidableEq, Repr

/-- A file, or `<name>.bak` next to it. -/
inductive Copy
  | primary
  | backup
  deriving DecidableEq, Repr

structure Pair where
  primary : Contents
  backup : Contents
  deriving DecidableEq, Repr

namespace Pair

def at_ (p : Pair) : Copy → Contents
  | .primary => p.primary
  | .backup => p.backup

def put (p : Pair) (c : Copy) (doc : Document) : Pair :=
  match c with
  | .primary => { p with primary := .text doc }
  | .backup => { p with backup := .text doc }

end Pair

/-- A read that fails; `FileNotFoundError` is an `OSError` too, `UnicodeDecodeError` is none. -/
inductive ReadError
  | fileNotFound
  | osError
  | unicodeDecode
  deriving DecidableEq, Repr

def ReadError.isOSError : ReadError → Bool
  | .fileNotFound | .osError => true
  | .unicodeDecode => false

/-- A row of `DEVICES`: device name, OS version, screen, arch. -/
abbrev Device := String × String × String × String

inductive FileOp
  | exists_ (c : Copy)
  | readText (c : Copy)
  | replace (c : Copy) (doc : Document)
  /-- `secrets.choice(DEVICES)`. -/
  | choice
  /-- `secrets.token_hex(8)`. -/
  | tokenHex
  | onRepair (reason : String)
  deriving DecidableEq, Repr

abbrev FileOp.Answer : FileOp → Type
  | .exists_ _ => Bool
  | .readText _ => Except ReadError Document
  | .replace _ _ => Except ReadError Unit
  | .choice => Device
  | .tokenHex => String
  | .onRepair _ => Unit

abbrev FileProg := Script FileOp.Answer ReadError

open Script

def fileExists (c : Copy) : FileProg Bool := query (FileOp.exists_ c)

def readText (c : Copy) : FileProg Document := do
  let r : Except ReadError Document ← query (FileOp.readText c)
  orThrow id r

def replace (c : Copy) (doc : Document) : FileProg Unit := do
  let r : Except ReadError Unit ← query (FileOp.replace c doc)
  orThrow id r

def catchOSError {α : Type} (x : FileProg α) (h : FileProg α) : FileProg α :=
  tryCatch x fun e => if e.isOSError then h else throw e

/-- `_try_replace`. -/
def tryReplace (c : Copy) (doc : Document) : FileProg Unit :=
  catchOSError (replace c doc) (pure ())

/-- The text the primary holds, unless it is missing or cannot be read. -/
def previousText : FileProg (Option Document) := do
  if ← fileExists .primary then
    catchOSError (do return some (← readText .primary)) (pure none)
  else
    pure none

/-- The copy is seeded on the first write. -/
def seedBackup (payload : Document) : FileProg Unit := do
  if ← fileExists .backup then pure () else tryReplace .backup payload

def writeAtomic (payload : Document) : FileProg Unit := do
  match ← previousText with
  | some previous =>
      tryReplace .backup previous
      replace .primary payload
  | none =>
      replace .primary payload
      seedBackup payload

/-- A copy of a file that was written before copies were kept. -/
def seedFromPrimary : FileProg Bool :=
  catchOSError (do
    replace .backup (← readText .primary)
    return true) (pure false)

def ensureBackup : FileProg Bool := do
  if ← fileExists .backup then pure false
  else if ← fileExists .primary then seedFromPrimary
  else pure false

/-- What one candidate of `read_with_backup` gives. -/
def readCandidate {α : Type} (parse : Document → Option α) (c : Copy) : FileProg (Option α) :=
  catchOSError (do return parse (← readText c)) (pure none)

/-- The value, and whether it came from the copy. -/
def readWithBackup {α : Type} (parse : Document → Option α) : FileProg (Option α × Bool) := do
  match ← readCandidate parse .primary with
  | some value => return (some value, false)
  | none =>
      match ← readCandidate parse .backup with
      | some value => return (some value, true)
      | none => return (none, false)

/-! ## the disk -/

/-- What is drawn at random. -/
structure Chance where
  device : Device := ("", "", "", "")
  token : String := ""
  deriving DecidableEq, Repr

namespace Pair

def read (p : Pair) (c : Copy) : Except ReadError Document :=
  match p.at_ c with
  | .absent => .error .fileNotFound
  | .unreadable => .error .osError
  | .undecodable => .error .unicodeDecode
  | .text doc => .ok doc

def answer (p : Pair) (chance : Chance) : (op : FileOp) → op.Answer
  | .exists_ c => decide (p.at_ c ≠ .absent)
  | .readText c => p.read c
  | .replace _ _ => .ok ()
  | .choice => chance.device
  | .tokenHex => chance.token
  | .onRepair _ => ()

def next (p : Pair) : FileOp → Pair
  | .replace c doc => p.put c doc
  | _ => p

end Pair

/-- A file that the system still hands out, but whose contents are not the state any more. -/
def Contents.spoiled {α : Type} (parse : Document → Option α) : Contents → Bool
  | .undecodable => true
  | .text doc => (parse doc).isNone
  | _ => false

/-- A primary is not read while it is spoiled. -/
def FileOp.spares {α : Type} (parse : Document → Option α) (p : Pair) : FileOp → Bool
  | .readText .primary => !p.primary.spoiled parse
  | _ => true

/-- A state file and its copy, under a process that reads and writes them. -/
structure Slot where
  pair : Pair
  /-- The primary has gone bad since the process last read or replaced it. -/
  hit : Bool
  deriving DecidableEq, Repr

/-- It sees what stands as the primary, or puts something there. -/
def FileOp.looks : FileOp → Bool
  | .readText .primary | .replace .primary _ => true
  | _ => false

def Slot.next (s : Slot) (op : FileOp) : Slot := ⟨s.pair.next op, s.hit && !op.looks⟩

/-- The file and its copy, as long as no spoiled primary is read. -/
def disk {α : Type} (parse : Document → Option α) : World FileOp.Answer Slot Chance where
  answer s := s.pair.answer
  next s _ op := s.next op
  fits s op := op.spares parse s.pair = true

/-! ## what the operations leave -/

section
variable {α : Type} {parse : Document → Option α}

/-- A file that parses, or the copy of one. -/
def Contents.parses (parse : Document → Option α) : Contents → Option α
  | .text doc => parse doc
  | _ => none

def Pair.bothParse (parse : Document → Option α) (p : Pair) : Bool :=
  (p.primary.parses parse).isSome && (p.backup.parses parse).isSome

/-- Both parse, or the primary has gone bad since it was last looked at. -/
def Slot.whole (parse : Document → Option α) (s : Slot) : Bool := s.hit || s.pair.bothParse parse

/-- The primary goes bad, where it may. -/
def Slot.Hit (parse : Document → Option α) (may : Pair → Bool) (s t : Slot) : Prop :=
  t = s ∨ may s.pair = true ∧ t.pair.backup = s.pair.backup ∧
    t.pair.primary.parses parse = none ∧ t.hit = true

variable {may : Pair → Bool} {C E : Pair → Prop} {s t u : Slot}

/-- What was put there parses, and so does the copy. -/
theorem Slot.whole_next {payload : Document} {v : α} (hpayload : parse payload = some v)
    (hbackup : (s.pair.backup.parses parse).isSome = true) :
    (s.next (.replace .primary payload)).whole parse = true := by
  have hfirst : (Contents.text payload).parses parse = some v := hpayload
  simp [Slot.whole, Slot.next, Pair.next, Pair.put, Pair.bothParse, hfirst, hbackup]

theorem Slot.Hit.refl (s : Slot) : s.Hit parse may s := .inl rfl

theorem Slot.Hit.trans (hst : s.Hit parse may t) (htu : t.Hit parse may u) :
    s.Hit parse may u := by
  rcases htu with rfl | ⟨hmay, hbackup, hbad, hhit⟩
  · exact hst
  · rcases hst with rfl | ⟨hmay', hbackup', -, -⟩
    · exact .inr ⟨hmay, hbackup, hbad, hhit⟩
    · exact .inr ⟨hmay', hbackup.trans hbackup', hbad, hhit⟩

/-- What is bad stays bad. -/
theorem Slot.Hit.bad (h : s.Hit parse may t) (hbad : s.pair.primary.parses parse = none) :
    t.pair.primary.parses parse = none := by
  rcases h with rfl | ⟨-, -, hbad', -⟩
  · exact hbad
  · exact hbad'

/-- What the pair keeps to, wherever the primary goes bad. -/
def Stable (parse : Document → Option α) (may : Pair → Bool) (C : Pair → Prop) : Prop :=
  ∀ p q : Pair, C p → may p = true → q.backup = p.backup → q.primary.parses parse = none → C q

theorem Stable.hit (hC : Stable parse may C) (h : C s.pair) (hst : s.Hit parse may t) :
    C t.pair := by
  rcases hst with rfl | ⟨hmay, hbackup, hbad, -⟩
  · exact h
  · exact hC _ _ h hmay hbackup hbad

theorem Slot.Hit.whole (hst : s.Hit parse may t) (h : s.whole parse = true) :
    t.whole parse = true := by
  rcases hst with rfl | ⟨-, -, -, hhit⟩
  · exact h
  · simp [Slot.whole, hhit]

/-- A program that reads and writes the file keeps to `C` wherever it is stopped. -/
abbrev Endures {β : Type} (parse : Document → Option α) (may : Pair → Bool) (C : Pair → Prop)
    (s : Slot) (x : FileProg β) (Q : Slot → Except ReadError β → Prop) : Prop :=
  Withstands (disk parse) (Slot.Hit parse may) (fun s => C s.pair) s x Q

/-- What a primary holds that is no spoiled one: a text that parses, or nothing that is handed
out. -/
theorem Contents.cases_of_spares {c : Contents} (h : (!c.spoiled parse) = true) :
    (∃ doc v, c = .text doc ∧ parse doc = some v) ∨ c = .absent ∨ c = .unreadable := by
  cases c with
  | absent => exact .inr (.inl rfl)
  | unreadable => exact .inr (.inr rfl)
  | undecodable => cases h
  | text doc =>
      obtain ⟨v, hv⟩ : ∃ v, parse doc = some v := by
        simpa [Contents.spoiled, Option.isSome_iff_exists] using h
      exact .inl ⟨doc, v, rfl, hv⟩

theorem Contents.parses_eq_none {c : Contents} (h : c = .absent ∨ c = .unreadable) :
    c.parses parse = none := by
  rcases h with rfl | rfl <;> rfl

theorem Contents.ne_absent {c : Contents} {v : α} (h : c.parses parse = some v) : c ≠ .absent := by
  rintro rfl
  cases h

/-! ### one operation -/

@[simp] theorem Slot.next_exists (s : Slot) (c : Copy) : s.next (.exists_ c) = s := by
  simp [Slot.next, Pair.next, FileOp.looks]

@[simp] theorem Slot.next_onRepair (s : Slot) (reason : String) : s.next (.onRepair reason) = s := by
  simp [Slot.next, Pair.next, FileOp.looks]

@[simp] theorem Slot.next_readBackup (s : Slot) : s.next (.readText .backup) = s := by
  simp [Slot.next, Pair.next, FileOp.looks]

/-- An `OSError` is handled. -/
theorem endures_catchOSError {β : Type} {x h : FileProg β} {P Q : Slot → Except ReadError β → Prop}
    (hx : Endures parse may C s x P) (hok : ∀ t a, C t.pair → P t (.ok a) → Q t (.ok a))
    (hh : ∀ t e, C t.pair → P t (.error e) → e.isOSError = true ∧ Endures parse may C t h Q) :
    Endures parse may C s (catchOSError x h) Q := by
  refine hx.tryCatch hok fun t e ht he => ?_
  obtain ⟨hos, hnext⟩ := hh t e ht he
  rw [if_pos hos]
  exact hnext

section

variable (hC : Stable parse may C) (hnow : C s.pair)
include hC hnow

theorem endures_fileExists (c : Copy) :
    Endures parse may C s (fileExists c) fun t r =>
      s.Hit parse may t ∧ r = .ok (decide (t.pair.at_ c ≠ .absent)) := by
  intro t hst
  have ht := hC.hit hnow hst
  refine ⟨ht, fun _ _ => ?_⟩
  change Withstands _ _ _ (t.next _) (.done _) _
  rw [Slot.next_exists]
  exact ⟨ht, hst, rfl⟩

theorem endures_onRepair (reason : String) :
    Endures parse may C s (query (FileOp.onRepair reason) : FileProg Unit) fun t r =>
      s.Hit parse may t ∧ r = .ok () := by
  intro t hst
  have ht := hC.hit hnow hst
  refine ⟨ht, fun _ _ => ?_⟩
  change Withstands _ _ _ (t.next _) (.done _) _
  rw [Slot.next_onRepair]
  exact ⟨ht, hst, rfl⟩

theorem endures_readPrimary :
    Endures parse may C s (readText .primary) fun t r =>
      t.hit = false ∧ (∃ doc v, t.pair.primary = .text doc ∧ parse doc = some v ∧ r = .ok doc) ∨
        t.pair.primary.parses parse = none ∧ ∃ e, r = .error e ∧ e.isOSError = true := by
  intro t hst
  have ht := hC.hit hnow hst
  refine ⟨ht, fun hfits _ => ?_⟩
  obtain ⟨⟨primary, backup⟩, hit⟩ := t
  change Withstands _ _ _ (Slot.next _ _) _ _
  have hseen : Slot.next ⟨⟨primary, backup⟩, hit⟩ (.readText .primary) =
      ⟨⟨primary, backup⟩, false⟩ := by
    simp [Slot.next, Pair.next, FileOp.looks]
  rw [hseen]
  rcases Contents.cases_of_spares hfits with ⟨doc, v, hp, hdoc⟩ | hp | hp
  · obtain rfl : primary = .text doc := hp
    exact ⟨ht, .inl ⟨rfl, doc, v, rfl, hdoc, rfl⟩⟩
  · obtain rfl : primary = .absent := hp
    exact ⟨ht, .inr ⟨rfl, .fileNotFound, rfl, rfl⟩⟩
  · obtain rfl : primary = .unreadable := hp
    exact ⟨ht, .inr ⟨rfl, .osError, rfl, rfl⟩⟩

theorem endures_replace {c : Copy} {doc : Document}
    (hput : ∀ u : Slot, s.Hit parse may u → C u.pair → C (u.next (.replace c doc)).pair) :
    Endures parse may C s (replace c doc) fun t r =>
      r = .ok () ∧ ∃ u, s.Hit parse may u ∧ C u.pair ∧ t = u.next (.replace c doc) := by
  intro u hu
  have hkept := hC.hit hnow hu
  exact ⟨hkept, fun _ _ => ⟨hput u hu hkept, rfl, u, hu, hkept, rfl⟩⟩

/-! ### one function -/

/-- The primary is read, and one that cannot be read says nothing. -/
theorem endures_tryPrimary {β : Type} (f : Document → Option β) :
    Endures parse may C s (catchOSError (do return f (← readText .primary)) (pure none)) fun t r =>
      t.hit = false ∧
          (∃ doc v, t.pair.primary = .text doc ∧ parse doc = some v ∧ r = .ok (f doc)) ∨
        t.pair.primary.parses parse = none ∧ r = .ok none := by
  refine endures_catchOSError ((endures_readPrimary hC hnow).bind
    (Q := fun t r => t.hit = false ∧
        (∃ doc v, t.pair.primary = .text doc ∧ parse doc = some v ∧ r = .ok (f doc)) ∨
      t.pair.primary.parses parse = none ∧ ∃ e, r = .error e ∧ e.isOSError = true) ?_ ?_)
    (fun t v ht hq => ?_) fun t e ht hq => ?_
  · rintro t e ht (⟨-, doc, v, -, -, hr⟩ | ⟨hbad, e', hr, hos⟩)
    · cases hr
    · obtain rfl := Except.error.inj hr
      exact .inr ⟨hbad, e, rfl, hos⟩
  · rintro t doc ht (⟨hhit, doc', v, hp, hdoc, hr⟩ | ⟨-, e, hr, -⟩)
    · obtain rfl := Except.ok.inj hr
      exact ⟨ht, .inl ⟨hhit, doc, v, hp, hdoc, rfl⟩⟩
    · cases hr
  · rcases hq with hq | ⟨-, e, hr, -⟩
    · exact .inl hq
    · cases hr
  · rcases hq with ⟨-, doc, v, -, -, hr⟩ | ⟨hbad, e', hr, hos⟩
    · cases hr
    · obtain rfl := Except.error.inj hr
      exact ⟨hos, ht, .inr ⟨hbad, rfl⟩⟩

/-- The copy is there to be read. -/
theorem endures_readCandidate_backup (hcopy : ∀ p, C p → ∃ v, p.backup.parses parse = some v) :
    Endures parse may C s (readCandidate parse .backup) fun t r =>
      s.Hit parse may t ∧ ∃ v, t.pair.backup.parses parse = some v ∧ r = .ok (some v) := by
  intro t hst
  have ht := hC.hit hnow hst
  refine ⟨ht, fun _ _ => ?_⟩
  obtain ⟨v, hv⟩ := hcopy _ ht
  change Withstands _ _ _ (t.next _) _ _
  rw [Slot.next_readBackup]
  obtain ⟨⟨primary, backup⟩, hit⟩ := t
  cases backup with
  | text doc => exact ⟨ht, hst, v, hv, congrArg _ hv⟩
  | absent | unreadable | undecodable => cases hv

/-- **Reading**: the primary's value, or the copy's when the primary is missing or refused. -/
theorem endures_readWithBackup (hcopy : ∀ p, C p → ∃ v, p.backup.parses parse = some v) :
    Endures parse may C s (readWithBackup parse) fun t r =>
      t.hit = false ∧ (∃ v, t.pair.primary.parses parse = some v ∧ r = .ok (some v, false)) ∨
        t.pair.primary.parses parse = none ∧
          ∃ v, t.pair.backup.parses parse = some v ∧ r = .ok (some v, true) := by
  refine (endures_tryPrimary hC hnow parse).bind (fun t e ht hq => ?_) ?_
  · rcases hq with ⟨-, doc, v, -, -, hr⟩ | ⟨-, hr⟩ <;> cases hr
  rintro t _ ht (⟨hhit, doc, v, hp, hdoc, hr⟩ | ⟨hbad, hr⟩)
  · obtain rfl := Except.ok.inj hr
    rw [hdoc]
    refine ⟨ht, .inl ⟨hhit, v, ?_, rfl⟩⟩
    rw [hp]
    exact hdoc
  · obtain rfl := Except.ok.inj hr
    refine (endures_readCandidate_backup hC ht hcopy).bind (fun u e hu hq => ?_) ?_
    · obtain ⟨-, v, -, hr⟩ := hq
      cases hr
    rintro u _ hu ⟨hhit, v, hv, hr⟩
    obtain rfl := Except.ok.inj hr
    exact ⟨hu, .inr ⟨hhit.bad hbad, v, hv, rfl⟩⟩

theorem endures_previousText :
    Endures parse may C s previousText fun t r =>
      (∃ doc v, t.pair.primary = .text doc ∧ parse doc = some v ∧ r = .ok (some doc)) ∨
        t.pair.primary.parses parse = none ∧ r = .ok none := by
  refine (endures_fileExists hC hnow .primary).bind (fun t e ht hq => ?_) ?_
  · cases hq.2
  rintro t _ ht ⟨-, hr⟩
  obtain rfl := Except.ok.inj hr
  by_cases habsent : t.pair.primary = .absent
  · rw [if_neg (by simp [Pair.at_, habsent])]
    exact ⟨ht, .inr ⟨Contents.parses_eq_none (.inl habsent), rfl⟩⟩
  · rw [if_pos (by simp [Pair.at_, habsent])]
    refine (endures_tryPrimary hC ht some).mono (fun _ hu => hu) fun u r _ hq => ?_
    rcases hq with ⟨-, hq⟩ | hq
    · exact .inl hq
    · exact .inr hq

/-- Where there is a copy, none is made. -/
theorem endures_ensureBackup (hthere : ∀ p, C p → p.backup ≠ .absent) :
    Endures parse may C s ensureBackup fun t r => s.Hit parse may t ∧ r = .ok false := by
  refine (endures_fileExists hC hnow .backup).bind (fun t e ht hq => ?_) ?_
  · cases hq.2
  rintro t _ ht ⟨hhit, hr⟩
  obtain rfl := Except.ok.inj hr
  have hcopy : t.pair.at_ .backup ≠ .absent := hthere _ ht
  rw [if_pos (decide_eq_true hcopy)]
  exact ⟨ht, hhit, rfl⟩

theorem endures_seedBackup (hthere : ∀ p, C p → p.backup ≠ .absent) (payload : Document) :
    Endures parse may C s (seedBackup payload) fun t r => s.Hit parse may t ∧ r = .ok () := by
  refine (endures_fileExists hC hnow .backup).bind (fun t e ht hq => ?_) ?_
  · cases hq.2
  rintro t _ ht ⟨hhit, hr⟩
  obtain rfl := Except.ok.inj hr
  have hcopy : t.pair.at_ .backup ≠ .absent := hthere _ ht
  rw [if_pos (decide_eq_true hcopy)]
  exact ⟨ht, hhit, rfl⟩

theorem endures_tryReplace {c : Copy} {doc : Document}
    (hput : ∀ u : Slot, s.Hit parse may u → C u.pair → C (u.next (.replace c doc)).pair) :
    Endures parse may C s (tryReplace c doc) fun t r =>
      r = .ok () ∧ ∃ u, s.Hit parse may u ∧ C u.pair ∧ t = u.next (.replace c doc) :=
  endures_catchOSError (endures_replace hC hnow hput) (fun _ _ _ hq => hq) fun _ _ _ hq => by
    cases hq.1

end

/-- **Rewriting**: stopped on the way, it leaves what it found, or the primary's text in the copy;
where it ends, the payload stands beside that text, or beside the copy as it was. -/
theorem endures_writeAtomic {payload : Document} (hC : Stable parse may C)
    (hE : Stable parse may E) (hnow : C s.pair) (hEC : ∀ p, E p → C p)
    (hcopy : ∀ p, C p → ∃ v, p.backup.parses parse = some v)
    (hpayload : ∃ v, parse payload = some v)
    (hcopied : ∀ p q doc v, C p → p.primary = .text doc → parse doc = some v →
      (q = p ∨ q.primary.parses parse = none) → C { q with backup := .text doc })
    (hend : ∀ p doc v, C p → p.primary = .text doc → parse doc = some v →
      E ⟨.text payload, .text doc⟩)
    (hbad : ∀ p, C p → p.primary.parses parse = none → E ⟨.text payload, p.backup⟩) :
    Endures parse may C s (writeAtomic payload) fun t r =>
      r = .ok () ∧ E t.pair ∧ t.whole parse = true := by
  obtain ⟨value, hvalue⟩ := hpayload
  refine (endures_previousText hC hnow).bind (fun t e ht hq => ?_) ?_
  · rcases hq with ⟨doc, v, -, -, hr⟩ | ⟨-, hr⟩ <;> cases hr
  rintro t _ ht (⟨doc, v, hp, hdoc, hr⟩ | ⟨hgone, hr⟩)
  · obtain rfl := Except.ok.inj hr
    -- The text that was read goes into the copy, whatever has become of the primary.
    refine Withstands.bind (endures_tryReplace hC ht fun u hu _ => ?_) (fun _ _ _ hq => ?_) ?_
    · refine hcopied t.pair u.pair doc v ht hp hdoc ?_
      rcases hu with rfl | ⟨-, -, hgone, -⟩
      · exact .inl rfl
      · exact .inr hgone
    · cases hq.1
    rintro _ _ hx ⟨-, u, -, -, rfl⟩
    have hnew (y : Slot) (hy : (u.next (.replace .backup doc)).Hit parse may y) :
        (y.next (.replace .primary payload)).pair = ⟨.text payload, .text doc⟩ := by
      rcases hy with rfl | ⟨-, hsame, -, -⟩
      · rfl
      · exact congrArg (Pair.mk _) hsame
    have hE' := hend t.pair doc v ht hp hdoc
    refine (endures_replace hC hx fun y hy _ => ?_).mono (fun _ hy => hy) ?_
    · rw [hnew y hy]
      exact hEC _ hE'
    · rintro _ r - ⟨rfl, y, hy, -, rfl⟩
      refine ⟨rfl, (hnew y hy).symm ▸ hE', Slot.whole_next hvalue ?_⟩
      have hbackup : y.pair.backup = .text doc := congrArg Pair.backup (hnew y hy)
      rw [hbackup]
      exact (congrArg Option.isSome hdoc).trans rfl
  · obtain rfl := Except.ok.inj hr
    -- The primary gave nothing to copy: the copy stays as it is.
    refine Withstands.bind (endures_replace hC ht fun u hu hkept => ?_) (fun _ _ _ hq => ?_) ?_
    · exact hEC _ (hbad _ hkept (hu.bad hgone))
    · cases hq.1
    rintro _ _ - ⟨-, u, hu, hkept, rfl⟩
    have hthere (p : Pair) (hp : E p) : p.backup ≠ .absent := by
      obtain ⟨v, hv⟩ := hcopy p (hEC p hp)
      exact Contents.ne_absent hv
    have hwhole : (u.next (.replace .primary payload)).whole parse = true := by
      obtain ⟨v, hv⟩ := hcopy _ hkept
      exact Slot.whole_next hvalue (by rw [hv]; rfl)
    refine (endures_seedBackup hE (hbad _ hkept (hu.bad hgone)) hthere payload).mono (fun _ => hEC _) ?_
    rintro x r hx ⟨hhit, rfl⟩
    exact ⟨rfl, hx, hhit.whole hwhole⟩

/-- Both state files are written so: a write that fails is a line in the log. -/
theorem endures_writeOrLog {payload : Document} (hC : Stable parse may C)
    (hE : Stable parse may E) (hnow : C s.pair) (hEC : ∀ p, E p → C p)
    (hcopy : ∀ p, C p → ∃ v, p.backup.parses parse = some v)
    (hpayload : ∃ v, parse payload = some v)
    (hcopied : ∀ p q doc v, C p → p.primary = .text doc → parse doc = some v →
      (q = p ∨ q.primary.parses parse = none) → C { q with backup := .text doc })
    (hend : ∀ p doc v, C p → p.primary = .text doc → parse doc = some v →
      E ⟨.text payload, .text doc⟩)
    (hbad : ∀ p, C p → p.primary.parses parse = none → E ⟨.text payload, p.backup⟩) :
    Endures parse may C s (catchOSError (writeAtomic payload) (pure ())) fun t r =>
      r = .ok () ∧ E t.pair ∧ t.whole parse = true :=
  endures_catchOSError
    (endures_writeAtomic hC hE hnow hEC hcopy hpayload hcopied hend hbad) (fun _ _ _ hq => hq)
    fun _ _ _ hq => by cases hq.1

end

end Telemax.MaxClient
