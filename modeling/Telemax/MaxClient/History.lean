import Mathlib.Data.List.Sort

/-!
# Telemax.MaxClient.History

`_page_history` and `fetch_history`: a chat's messages, walked back page by page
from the oldest one seen so far until a page brings nothing new.  The server is
whatever answers a request, given the requests before it.
-/

namespace Telemax.MaxClient.History

/-- An entry of the history, by the fields that are looked at. -/
structure Item where
  /-- `id(item)`: which object it is. -/
  address : Int
  id : Option Int := none
  message_id : Option Int := none
  messageId : Option Int := none
  time : Option Int := none
  timestamp : Option Int := none
  created_at : Option Int := none
  text : String := ""
  deriving DecidableEq, Repr

/-- `_history_key`. -/
def historyKey (item : Item) : Int :=
  ((item.id.or item.message_id).or item.messageId).getD item.address

/-- `_history_time`. -/
def historyTime (item : Item) : Option Int :=
  ((item.time.filter (0 < ·)).or (item.timestamp.filter (0 < ·))).or
    (item.created_at.filter (0 < ·))

inductive Request
  /-- With `backward` and `from_time`. -/
  | page (backward : Int) (fromTime : Option Int)
  /-- Without the paging arguments. -/
  | plain
  deriving DecidableEq, Repr

inductive Reply
  | batch (items : List Item)
  | typeError
  /-- Anything else. -/
  | raised (text : String)
  deriving DecidableEq, Repr

/-- What comes of a request, given all requests so far, the last one included. -/
abbrev Server := List Request → Reply

inductive Fault
  | typeError
  | raised (text : String)
  deriving DecidableEq, Repr

def MAX_HISTORY_PAGE : Int := 200

def MAX_HISTORY_MESSAGES : Int := 20000

/-- What was asked, and what came. -/
abbrev Log := List (Request × Reply)

def ask (serve : Server) (log : Log) (request : Request) : Reply × Log :=
  let reply := serve (log.map (·.1) ++ [request])
  (reply, log ++ [(request, reply)])

/-- An older client: one page, without the arguments. -/
def plain (serve : Server) (log : Log) (collected : List Item) (seen : List Int) :
    Except Fault (List Item) × Log :=
  match ask serve log .plain with
  | (.batch items, log) => (.ok (collected ++ items.filter (·.address ∉ seen)), log)
  | (.typeError, log) => (.error .typeError, log)
  | (.raised text, log) => (.error (.raised text), log)

/-- The loop.  Each turn but the last collects an entry, so the wanted number bounds
the turns. -/
def pageLoop (serve : Server) (wanted page : Int) : Nat → Log → List Item → List Int →
    Option Int → Except Fault (List Item) × Log
  | 0, log, collected, _, _ => (.ok collected, log)
  | turns + 1, log, collected, seen, fromTime =>
      if wanted ≤ collected.length then (.ok collected, log)
      else
        match ask serve log (.page page fromTime) with
        | (.raised text, log) => (.error (.raised text), log)
        | (.typeError, log) => plain serve log collected seen
        | (.batch items, log) =>
            let fresh := items.filter (historyKey · ∉ seen)
            if fresh = [] then (.ok collected, log)
            else
              match (fresh.filterMap historyTime).min? with
              | none => (.ok (collected ++ fresh), log)
              | some oldest =>
                  pageLoop serve wanted page turns log (collected ++ fresh)
                    (seen ++ fresh.map historyKey) (some oldest)

def wanted (limit : Option Int) : Int := limit.getD MAX_HISTORY_MESSAGES

def pageSize (limit : Option Int) : Int := min MAX_HISTORY_PAGE (wanted limit)

/-- `_page_history`. -/
def pageHistory (serve : Server) (limit : Option Int) : Except Fault (List Item) × Log :=
  pageLoop serve (wanted limit) (pageSize limit) (wanted limit).toNat [] [] [] none

/-- `normalize_message`, as far as `fetch_history` looks at what it makes. -/
structure IncomingMaxMessage where
  messageId : Int
  timestamp : Int
  text : String
  fromHistory : Bool
  deriving DecidableEq, Repr

def normalizeMessage (item : Item) : IncomingMaxMessage where
  messageId := item.id.getD 0
  timestamp := item.time.getD 0
  text := item.text
  fromHistory := false

/-- `messages[-limit:]`. -/
def newest {α : Type} (limit : Int) (messages : List α) : List α :=
  if 0 < limit then messages.drop (messages.length - limit.toNat)
  else messages.drop (-limit).toNat

/-- `fetch_history`. -/
def fetchHistory (serve : Server) (limit : Option Int) : Except Fault (List IncomingMaxMessage) :=
  match (pageHistory serve limit).1 with
  | .error fault => .error fault
  | .ok history =>
      let messages := history.map fun item => { normalizeMessage item with fromHistory := true }
      let sorted := messages.insertionSort fun a b => a.messageId ≤ b.messageId
      .ok (match limit with
        | none => sorted
        | some limit => newest limit sorted)

/-! ## The requests come to an end -/

section
variable {serve : Server} {wanted page : Int} {turns : Nat} {log : Log} {collected : List Item}
  {seen : List Int} {fromTime : Option Int}

theorem plain_log : ∃ reply, (plain serve log collected seen).2 = log ++ [(.plain, reply)] := by
  simp only [plain, ask]
  cases serve (log.map (·.1) ++ [.plain]) <;> exact ⟨_, rfl⟩

theorem pageLoop_log_length :
    (pageLoop serve wanted page turns log collected seen fromTime).2.length ≤
      log.length + turns + 1 := by
  induction turns generalizing log collected seen fromTime with
  | zero => simp [pageLoop]
  | succ turns ih =>
    simp only [pageLoop, ask]
    split
    · simp only; omega
    cases serve (log.map (·.1) ++ [.page page fromTime]) with
    | raised text => simp
    | typeError =>
      obtain ⟨reply, hlog⟩ :=
        @plain_log serve (log ++ [(.page page fromTime, .typeError)]) collected seen
      simp only [hlog, List.length_append, List.length_singleton]
      omega
    | batch items =>
      simp only
      split
      · simp
      · split
        · simp
        · refine Nat.le_trans ih ?_
          simp only [List.length_append, List.length_singleton]
          omega

/-- Turns beyond the wanted number are not taken: the loop ends by its own conditions. -/
theorem pageLoop_fuel (hturns : wanted ≤ turns + collected.length) :
    pageLoop serve wanted page (turns + 1) log collected seen fromTime =
      pageLoop serve wanted page turns log collected seen fromTime := by
  induction turns generalizing log collected seen fromTime with
  | zero => simp only [pageLoop]; rw [if_pos (by simpa using hturns)]
  | succ turns ih =>
    conv_lhs => rw [pageLoop]
    conv_rhs => rw [pageLoop]
    simp only [ask]
    split
    · rfl
    cases serve (log.map (·.1) ++ [.page page fromTime]) with
    | raised text => rfl
    | typeError => rfl
    | batch items =>
      simp only
      split
      · rfl
      · rename_i hfresh
        split
        · rfl
        · have hlength := List.length_pos_iff.mpr hfresh
          exact ih (by simp only [List.length_append]; omega)

end

/-! ## What is repeated -/

/-- None of the entries has the key of another one, nor of one seen before. -/
def Apart (seen : List Int) (items : List Item) : Prop :=
  (items.map historyKey).Nodup ∧ ∀ item ∈ items, historyKey item ∉ seen

/-- No page has two new entries with one key, and an older client's one page has no entry
with the key of another or of one collected before. -/
def Fair (seen : List Int) : List Reply → Prop
  | .batch items :: rest =>
      let fresh := items.filter (historyKey · ∉ seen)
      (fresh.map historyKey).Nodup ∧ Fair (seen ++ fresh.map historyKey) rest
  | .typeError :: .batch items :: _ => Apart seen (items.filter (·.address ∉ seen))
  | _ => True

/-- The last request was answered with a page. -/
def Answered (replies : List Reply) : Prop :=
  ∀ reply ∈ replies.getLast?, ∃ items, reply = .batch items

/-- What the loop adds to what it was given. -/
structure Told (collected : List Item) (seen : List Int) (replies : List Reply)
    (added : List Item) (outcome : Except Fault (List Item)) : Prop where
  ok : ∀ items, outcome = .ok items → items = collected ++ added
  answered : Answered replies ↔ ∃ items, outcome = .ok items
  fair : (∃ items, outcome = .ok items) → (Fair seen replies ↔ Apart seen added)

namespace Told
variable {collected : List Item} {seen : List Int} {replies : List Reply} {added : List Item}
  {outcome : Except Fault (List Item)}

theorem done : Told collected seen [] [] (.ok collected) where
  ok := by simp
  answered := by simp [Answered]
  fair := by simp [Fair, Apart]

theorem raised (text : String) : Told collected seen [.raised text] [] (.error (.raised text)) where
  ok := by simp
  answered := by simp [Answered]
  fair := by simp

theorem last (items : List Item) :
    Told collected seen [.batch items] (items.filter (historyKey · ∉ seen))
      (.ok (collected ++ items.filter (historyKey · ∉ seen))) where
  ok := by simp
  answered := by simp [Answered]
  fair := by simp [Fair, Apart]

/-- A page with something new on it comes before the others. -/
theorem turn {items fresh : List Item} (hfresh : fresh = items.filter (historyKey · ∉ seen))
    (h : Told (collected ++ fresh) (seen ++ fresh.map historyKey) replies added outcome) :
    Told collected seen (.batch items :: replies) (fresh ++ added) outcome where
  ok := by simpa using h.ok
  answered := by
    rw [← h.answered]
    cases replies <;> simp [Answered]
  fair hok := by
    have hnew : ∀ item ∈ fresh, historyKey item ∉ seen := by simp [hfresh]
    simp only [Fair, ← hfresh, h.fair hok, Apart, List.map_append, List.nodup_append]
    grind

end Told

section
variable {serve : Server} {wanted page : Int} {turns : Nat} {log : Log} {collected : List Item}
  {seen : List Int} {fromTime : Option Int}

theorem plain_told :
    ∃ reply added, (plain serve log collected seen).2 = log ++ [(.plain, reply)] ∧
      Told collected seen [.typeError, reply] added (plain serve log collected seen).1 := by
  simp only [plain, ask]
  cases serve (log.map (·.1) ++ [.plain]) with
  | batch items =>
    exact ⟨_, items.filter (·.address ∉ seen), rfl, by simp, by simp [Answered], by simp [Fair]⟩
  | typeError => exact ⟨_, [], rfl, by simp, by simp [Answered], by simp⟩
  | raised text => exact ⟨_, [], rfl, by simp, by simp [Answered], by simp⟩

theorem pageLoop_told :
    ∃ rest added,
      (pageLoop serve wanted page turns log collected seen fromTime).2 = log ++ rest ∧
        Told collected seen (rest.map (·.2)) added
          (pageLoop serve wanted page turns log collected seen fromTime).1 := by
  induction turns generalizing log collected seen fromTime with
  | zero => exact ⟨[], [], by simp [pageLoop], .done⟩
  | succ turns ih =>
    simp only [pageLoop, ask]
    split
    · exact ⟨[], [], by simp, .done⟩
    cases serve (log.map (·.1) ++ [.page page fromTime]) with
    | raised text => exact ⟨[(.page page fromTime, .raised text)], [], rfl, .raised text⟩
    | typeError =>
      obtain ⟨reply, added, hlog, htold⟩ :=
        @plain_told serve (log ++ [(.page page fromTime, .typeError)]) collected seen
      exact ⟨[(.page page fromTime, .typeError), (.plain, reply)], added, by simp [hlog], htold⟩
    | batch items =>
      simp only
      split
      · rename_i hnone
        refine ⟨[(.page page fromTime, .batch items)], [], rfl, ?_⟩
        have hlast := @Told.last collected seen items
        rwa [hnone, List.append_nil] at hlast
      · split
        · exact ⟨[(.page page fromTime, .batch items)], _, rfl, .last items⟩
        · obtain ⟨rest, added, hlog, htold⟩ := ih
          exact ⟨(.page page fromTime, .batch items) :: rest, _, by rw [hlog]; simp,
            htold.turn rfl⟩

end

/-- The replies of a whole call, in their order. -/
def replies (serve : Server) (limit : Option Int) : List Reply :=
  (pageHistory serve limit).2.map (·.2)

theorem pageHistory_told (serve : Server) (limit : Option Int) :
    ∃ added, Told [] [] (replies serve limit) added (pageHistory serve limit).1 := by
  obtain ⟨rest, added, hlog, htold⟩ :=
    @pageLoop_told serve (wanted limit) (pageSize limit) (wanted limit).toNat [] [] [] none
  refine ⟨added, ?_⟩
  rw [replies, pageHistory, hlog]
  exact htold

/-- No two entries of a history that is given out have one key. -/
def NoRepeat (serve : Server) (limit : Option Int) : Prop :=
  ∀ items, (pageHistory serve limit).1 = .ok items → (items.map historyKey).Nodup

theorem noRepeat_iff_fair (serve : Server) (limit : Option Int) :
    NoRepeat serve limit ↔ (Answered (replies serve limit) → Fair [] (replies serve limit)) := by
  obtain ⟨added, htold⟩ := pageHistory_told serve limit
  rw [htold.answered]
  have hapart : Apart [] added ↔ (added.map historyKey).Nodup := by simp [Apart]
  constructor
  · rintro h ⟨items, hok⟩
    have hitems := h items hok
    rw [htold.ok items hok, List.nil_append] at hitems
    exact (htold.fair ⟨items, hok⟩).mpr (hapart.mpr hitems)
  · intro h items hok
    rw [htold.ok items hok, List.nil_append]
    exact hapart.mp ((htold.fair ⟨items, hok⟩).mp (h ⟨items, hok⟩))

end Telemax.MaxClient.History
