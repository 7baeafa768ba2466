import Telemax.Lib.Run
import Telemax.Provisioning.Journal

/-!
# Telemax.Provisioning.Generations

The journal file and the objects over it, each with its own cache, under any
sequence of selections, notes and removals.  Every mutation re-reads the file
under a lock keyed on it, so the file is the state and the caches are what the
callers see.

An attempt is what a selection starts for a contact that has none under way.  A
note is made on behalf of an attempt and may name its generation.  Generations
start again once a contact is forgotten or pruned and selected anew, and a note
that names none is taken for whatever attempt is current.
-/

namespace Telemax.Provisioning

namespace ProvisioningJournal

inductive NoteError
  | keyError (chat : Int)
  /-- `StaleGenerationError`. -/
  | staleGeneration (message : String)
  deriving DecidableEq, Repr

/-- `note(…, generation=…)`. -/
def noteFor (j : ProvisioningJournal) (chat : Int) (generation : Option Nat) (c : Changes) :
    Except NoteError ProvisioningJournal :=
  match j.get chat with
  | none => .error (.keyError chat)
  | some current =>
      if generation.all (· = current.generation) then .ok (j.put (c.apply current))
      else .error (.staleGeneration
        s!"attempt {generation.getD 0} for chat {chat} was superseded by attempt {current.generation}")

theorem get_noteFor {j j' : ProvisioningJournal} {chat : Int} {generation : Option Nat}
    {c : Changes} (h : j.noteFor chat generation c = .ok j') :
    ∃ current, j.get chat = some current ∧ generation.all (· = current.generation) = true ∧
      ∀ chat', j'.get chat' = if chat' = chat then some (c.apply current) else j.get chat' := by
  cases hget : j.get chat with
  | none => simp [noteFor, hget] at h
  | some current =>
      simp only [noteFor, hget] at h
      split at h
      · next hgen =>
          obtain rfl := Except.ok.inj h
          refine ⟨current, rfl, hgen, fun chat' => ?_⟩
          rw [get_put, Changes.maxChatId_apply, maxChatId_of_get hget]
      · cases h

/-- Forget the entries of these contacts that are finished. -/
def prune (j : ProvisioningJournal) (doomed : Int → Bool) : ProvisioningJournal where
  entries := j.entries.filter fun e => !(e.finished && doomed e.maxChatId)
  nodup := j.nodup.sublist (List.filter_sublist.map _)

theorem get_prune (j : ProvisioningJournal) (doomed : Int → Bool) (chat : Int) :
    (j.prune doomed).get chat =
      (j.get chat).filter fun e => !(e.finished && doomed e.maxChatId) := by
  refine get_eq_of_mem_iff fun e => ?_
  rw [Option.filter_eq_some_iff, get_eq_some_iff]
  simp only [prune, List.mem_filter]
  exact and_right_comm

/-- A selection finds no attempt of the contact under way: it starts one. -/
def startsAttempt : Option JournalEntry → Bool
  | none => true
  | some previous => !previous.finished && decide (previous.state ∈ terminal)

/-- An attempt under way, or finished, keeps its generation. -/
theorem generation_merged {previous : JournalEntry} (requested : JournalEntry)
    (h : startsAttempt (some previous) = false) :
    (merged (some previous) requested).generation = previous.generation := by
  simp only [startsAttempt, Bool.and_eq_false_iff, Bool.not_eq_false',
    decide_eq_false_iff_not] at h
  simp only [merged]
  split
  · rfl
  · next hfin => rw [if_neg (h.resolve_left hfin)]

/-- A new attempt follows the one before it. -/
theorem generation_merged_succ {previous : JournalEntry} (requested : JournalEntry)
    (h : startsAttempt (some previous) = true) :
    (merged (some previous) requested).generation = previous.generation + 1 := by
  simp only [startsAttempt, Bool.and_eq_true, Bool.not_eq_true', decide_eq_true_eq] at h
  simp [merged, h.1, h.2]

end ProvisioningJournal

/-- What an entry proves of the remote side, and `later` still does. -/
structure JournalEntry.Evident (e later : JournalEntry) : Prop where
  telegramBotId : ∀ b, e.telegramBotId = some b → later.telegramBotId = some b
  tokenEnv : ∀ v, e.tokenEnv = some v → later.tokenEnv = some v
  bridgeName : ∀ n, e.bridgeName = some n → later.bridgeName = some n

namespace JournalEntry.Evident

theorem refl (e : JournalEntry) : e.Evident e := ⟨fun _ h => h, fun _ h => h, fun _ h => h⟩

theorem trans {e f g : JournalEntry} (h : e.Evident f) (h' : f.Evident g) : e.Evident g :=
  ⟨fun b hb => h'.telegramBotId b (h.telegramBotId b hb),
    fun v hv => h'.tokenEnv v (h.tokenEnv v hv), fun n hn => h'.bridgeName n (h.bridgeName n hn)⟩

/-- The evidence travels with the contact, whichever case of a selection it is. -/
theorem merged (previous requested : JournalEntry) :
    previous.Evident (ProvisioningJournal.merged (some previous) requested) := by
  simp only [ProvisioningJournal.merged]
  split
  · exact refl previous
  · split
    · exact ⟨fun _ h => h, fun _ h => h, fun _ h => h⟩
    · exact ⟨fun _ h => h, fun _ h => h, fun _ h => h⟩

end JournalEntry.Evident

namespace JournalFile

/-- What one object remembers of the file. -/
structure Cache where
  entries : ProvisioningJournal
  loaded : Bool

/-- An attempt that was started for a contact, and its generation. -/
structure Attempt where
  chat : Int
  generation : Nat
  deriving DecidableEq, Repr

/-- A note that was written: on whose behalf, and which attempt was current. -/
structure Noted where
  behalf : Nat
  current : Option Nat
  deriving DecidableEq, Repr

structure State where
  file : ProvisioningJournal
  /-- `updated_at` of the entries. -/
  updatedAt : Int → Int
  objects : Nat → Cache
  /-- Every attempt ever started, in order. -/
  attempts : List Attempt
  current : Int → Option Nat
  noted : List Noted

inductive Event
  | load (object : Nat)
  | refresh (object : Nat)
  | begin_ (object : Nat) (entries : List JournalEntry)
  /-- A note on behalf of an attempt, which names its generation or not. -/
  | note (object : Nat) (chat : Int) (behalf : Nat) (names : Bool) (c : Changes) (now : Int)
  | forget (object : Nat) (chat : Int)
  | pruneFinished (object : Nat) (olderThanSeconds now : Int)

namespace State

/-- The object has read the file. -/
def read (s : State) (object : Nat) (loaded : Bool) : State :=
  { s with objects := Function.update s.objects object ⟨s.file, loaded⟩ }

/-- One contact of a selection. -/
def take (s : State) (e : JournalEntry) : State :=
  let previous := s.file.get e.maxChatId
  let entry := ProvisioningJournal.merged previous e
  let s' := { s with
    file := s.file.put entry
    updatedAt := if ProvisioningJournal.startsAttempt previous then
      Function.update s.updatedAt e.maxChatId 0 else s.updatedAt }
  if ProvisioningJournal.startsAttempt previous then
    { s' with
      attempts := s.attempts ++ [⟨e.maxChatId, entry.generation⟩]
      current := Function.update s.current e.maxChatId (some s.attempts.length) }
  else s'

/-- A note is written, or refused. -/
def note (s : State) (object : Nat) (chat : Int) (behalf : Nat) (generation : Option Nat)
    (c : Changes) (now : Int) : State :=
  match s.file.noteFor chat generation c with
  | .ok file =>
      read { s with
        file, updatedAt := Function.update s.updatedAt chat now
        noted := ⟨behalf, s.current chat⟩ :: s.noted } object true
  | .error _ => s.read object (s.objects object).loaded

/-- An entry that finished long ago. -/
def doomed (s : State) (cutoff : Int) (chat : Int) : Bool := decide (s.updatedAt chat < cutoff)

def step (s : State) : Event → Option State
  | .load object =>
      some (if (s.objects object).loaded then s else s.read object true)
  | .refresh object => some (s.read object true)
  | .begin_ object entries => some ((entries.foldl take s).read object true)
  | .note object chat behalf names c now =>
      match s.attempts[behalf]? with
      | some a =>
          if a.chat = chat then
            some (s.note object chat behalf (if names then some a.generation else none) c now)
          else none
      | none => none
  | .forget object chat =>
      if (s.file.get chat).isSome then
        some (read { s with
          file := s.file.forget chat, current := Function.update s.current chat none } object true)
      else some (s.read object (s.objects object).loaded)
  | .pruneFinished object olderThanSeconds now =>
      let gone (chat : Int) := (s.file.get chat).any fun e =>
        e.finished && s.doomed (now - olderThanSeconds) chat
      some (read { s with
        file := s.file.prune (s.doomed (now - olderThanSeconds))
        current := fun chat => if gone chat then none else s.current chat } object
          (s.file.entries.any (fun e => gone e.maxChatId) || (s.objects object).loaded))

/-- The selection of a whole list is `begin`. -/
theorem file_takes (s : State) (entries : List JournalEntry) :
    (entries.foldl take s).file = s.file.begin entries := by
  induction entries generalizing s with
  | nil => rfl
  | cons e entries ih =>
      have hfile : (s.take e).file =
          s.file.put (ProvisioningJournal.merged (s.file.get e.maxChatId) e) := by
        simp only [take]
        split <;> rfl
      rw [List.foldl_cons, ih, hfile]
      rfl

end State

def sys : Run.Sys State Event where
  start := ⟨.empty, fun _ => 0, fun _ => ⟨.empty, false⟩, [], fun _ => none, []⟩
  step := State.step

/-! ## what is promised -/

/-- The contacts whose entry an operation is about. -/
def Event.about (s : State) (chat : Int) : Event → Bool
  | .load _ | .refresh _ => false
  | .begin_ _ entries => entries.any (·.maxChatId = chat)
  | .note _ chat' _ _ _ _ | .forget _ chat' => decide (chat = chat')
  | .pruneFinished _ olderThanSeconds now =>
      (s.file.get chat).any fun e => e.finished && s.doomed (now - olderThanSeconds) chat

/-- A selection, or a note that does not name the bot, the token or the bridge. -/
def Event.silent : Event → Bool
  | .note _ _ _ _ c _ => decide (c.telegramBotId = none ∧ c.tokenEnv = none ∧ c.bridgeName = none)
  | .forget _ _ | .pruneFinished _ _ _ => false
  | _ => true

namespace State

/-- A note names the generation of its attempt unless that one is current, and no contact is
selected anew after its entry was forgotten or pruned. -/
def identifies (s : State) : Event → Bool
  | .note _ chat behalf names _ _ => names || decide (s.current chat = some behalf)
  | .begin_ _ entries =>
      entries.all fun e =>
        (s.file.get e.maxChatId).isSome || s.attempts.all (·.chat ≠ e.maxChatId)
  | _ => true

/-- The journal loses no evidence and obeys no dead attempt. -/
structure Sound (s : State) : Prop where
  others : ∀ e t, s.step e = some t → ∀ chat, e.about s chat = false →
    t.file.get chat = s.file.get chat ∧ t.updatedAt chat = s.updatedAt chat
  evidence : ∀ t, Run.Leads sys (fun _ e => e.silent = true) s t → ∀ chat e,
    s.file.get chat = some e → ∃ later, t.file.get chat = some later ∧ e.Evident later
  finished : ∀ object entries t, s.step (.begin_ object entries) = some t → ∀ chat e,
    s.file.get chat = some e → e.finished = true →
      t.file.get chat = some e ∧ t.updatedAt chat = s.updatedAt chat
  noted : ∀ n ∈ s.noted, n.current = some n.behalf
  unique : ∀ (a b : Nat) (x y : Attempt), s.attempts[a]? = some x → s.attempts[b]? = some y → x.chat = y.chat →
    x.generation = y.generation → a = b

/-! ## what one operation does to the entries -/

variable {s t : State}

/-- The one contact's entry after its part of a selection. -/
theorem file_take (s : State) (e : JournalEntry) :
    (s.take e).file = s.file.put (ProvisioningJournal.merged (s.file.get e.maxChatId) e) := by
  simp only [take]
  split <;> rfl

theorem get_take (s : State) (e : JournalEntry) (chat : Int) :
    (s.take e).file.get chat = if chat = e.maxChatId then
      some (ProvisioningJournal.merged (s.file.get e.maxChatId) e) else s.file.get chat := by
  rw [file_take, ProvisioningJournal.get_put, ProvisioningJournal.maxChatId_merged]

theorem updatedAt_take_other {e : JournalEntry} {chat : Int} (h : e.maxChatId ≠ chat) :
    (s.take e).updatedAt chat = s.updatedAt chat := by
  simp only [take]
  split
  · exact Function.update_of_ne h.symm _ _
  · rfl

/-- A selection without the contact. -/
theorem takes_other {entries : List JournalEntry} {chat : Int}
    (h : ∀ e ∈ entries, e.maxChatId ≠ chat) :
    (entries.foldl take s).file.get chat = s.file.get chat ∧
      (entries.foldl take s).updatedAt chat = s.updatedAt chat := by
  induction entries generalizing s with
  | nil => exact ⟨rfl, rfl⟩
  | cons e entries ih =>
      obtain ⟨hne, hrest⟩ := List.forall_mem_cons.mp h
      obtain ⟨hget, hupdated⟩ := ih (s := s.take e) hrest
      rw [List.foldl_cons, hget, hupdated, get_take, if_neg fun heq => hne heq.symm]
      exact ⟨rfl, updatedAt_take_other hne⟩

/-- The evidence of every entry survives a selection. -/
theorem evident_takes {entries : List JournalEntry} {chat : Int} {e : JournalEntry}
    (h : s.file.get chat = some e) :
    ∃ later, (entries.foldl take s).file.get chat = some later ∧ e.Evident later := by
  induction entries generalizing s e with
  | nil => exact ⟨e, h, .refl e⟩
  | cons x entries ih =>
      by_cases hx : chat = x.maxChatId
      · subst hx
        obtain ⟨later, hlater, hev⟩ := ih (s := s.take x)
          (by rw [get_take, if_pos rfl, h])
        exact ⟨later, hlater, (JournalEntry.Evident.merged e x).trans hev⟩
      · exact ih (s := s.take x) (by rw [get_take, if_neg hx, h])

/-- A selection leaves a finished entry, and the time of its last change. -/
theorem finished_takes {entries : List JournalEntry} {chat : Int} {e : JournalEntry}
    (h : s.file.get chat = some e) (hfin : e.finished = true) :
    (entries.foldl take s).file.get chat = some e ∧
      (entries.foldl take s).updatedAt chat = s.updatedAt chat := by
  refine ⟨by rw [file_takes]; exact ProvisioningJournal.get_begin_finished h hfin entries, ?_⟩
  induction entries generalizing s with
  | nil => rfl
  | cons x entries ih =>
      have hget : (s.take x).file.get chat = some e := by
        rw [file_take]
        exact ProvisioningJournal.get_begin_finished h hfin [x]
      rw [List.foldl_cons, ih hget]
      simp only [take]
      split
      · next hstarts =>
          have hne : chat ≠ x.maxChatId := by
            rintro rfl
            simp [h, ProvisioningJournal.startsAttempt, hfin] at hstarts
          exact Function.update_of_ne hne _ _
      · rfl

theorem note_file (s : State) (object : Nat) (chat : Int) (behalf : Nat)
    (generation : Option Nat) (c : Changes) (now : Int) :
    (∃ file, s.file.noteFor chat generation c = .ok file ∧
      (s.note object chat behalf generation c now).file = file ∧
      (s.note object chat behalf generation c now).noted = ⟨behalf, s.current chat⟩ :: s.noted) ∨
    ((s.note object chat behalf generation c now).file = s.file ∧
      (s.note object chat behalf generation c now).noted = s.noted) := by
  simp only [State.note]
  split
  · next file hfile => exact .inl ⟨file, hfile, rfl, rfl⟩
  · exact .inr ⟨rfl, rfl⟩

theorem updatedAt_note_other (object : Nat) {chat chat' : Int} (hne : chat ≠ chat') (behalf : Nat)
    (generation : Option Nat) (c : Changes) (now : Int) :
    (s.note object chat' behalf generation c now).updatedAt chat = s.updatedAt chat := by
  simp only [State.note]
  split
  · exact Function.update_of_ne hne _ _
  · rfl

/-- An operation leaves the entries it is not about, and the times of their last changes. -/
theorem others_step {e : Event} (hst : s.step e = some t) {chat : Int}
    (h : e.about s chat = false) :
    t.file.get chat = s.file.get chat ∧ t.updatedAt chat = s.updatedAt chat := by
  cases e with
  | load object =>
      obtain rfl := Option.some.inj hst
      split <;> exact ⟨rfl, rfl⟩
  | refresh object =>
      obtain rfl := Option.some.inj hst
      exact ⟨rfl, rfl⟩
  | begin_ object entries =>
      obtain rfl := Option.some.inj hst
      refine takes_other (s := s) fun e he heq => ?_
      simp only [Event.about, List.any_eq_false, decide_eq_true_eq] at h
      exact h e he heq
  | note object chat' behalf names c now =>
      have hne : chat ≠ chat' := of_decide_eq_false h
      simp only [State.step] at hst
      split at hst
      · split at hst
        · obtain rfl := Option.some.inj hst
          refine ⟨?_, updatedAt_note_other object hne behalf _ c now⟩
          rcases note_file s object chat' behalf _ c now with ⟨file, hfile, heq, -⟩ | ⟨heq, -⟩
          · obtain ⟨current, -, -, hget⟩ := ProvisioningJournal.get_noteFor hfile
            rw [heq, hget, if_neg hne]
          · rw [heq]
        · cases hst
      · cases hst
  | forget object chat' =>
      have hne : chat ≠ chat' := of_decide_eq_false h
      simp only [State.step] at hst
      split at hst
      · obtain rfl := Option.some.inj hst
        exact ⟨(ProvisioningJournal.get_forget _ _ _).trans (if_neg hne), rfl⟩
      · obtain rfl := Option.some.inj hst
        exact ⟨rfl, rfl⟩
  | pruneFinished object olderThanSeconds now =>
      obtain rfl := Option.some.inj hst
      refine ⟨(ProvisioningJournal.get_prune _ _ _).trans ?_, rfl⟩
      cases hget : s.file.get chat with
      | none => rfl
      | some e =>
          have hid := ProvisioningJournal.maxChatId_of_get hget
          simp only [Event.about, hget, Option.any_some] at h
          rw [Option.filter_some, hid, h]
          rfl

/-- A selection, or a note that does not name the evidence, keeps it. -/
theorem evident_step {e : Event} (hst : s.step e = some t) (hsilent : e.silent = true)
    {chat : Int} {entry : JournalEntry} (h : s.file.get chat = some entry) :
    ∃ later, t.file.get chat = some later ∧ entry.Evident later := by
  cases e with
  | load object =>
      obtain rfl := Option.some.inj hst
      exact ⟨entry, by split <;> exact h, .refl entry⟩
  | refresh object =>
      obtain rfl := Option.some.inj hst
      exact ⟨entry, h, .refl entry⟩
  | begin_ object entries =>
      obtain rfl := Option.some.inj hst
      exact evident_takes (s := s) h
  | note object chat' behalf names c now =>
      obtain ⟨hbot, htoken, hbridge⟩ := of_decide_eq_true hsilent
      simp only [State.step] at hst
      split at hst
      · split at hst
        · obtain rfl := Option.some.inj hst
          rcases note_file s object chat' behalf _ c now with ⟨file, hfile, heq, -⟩ | ⟨heq, -⟩
          · obtain ⟨current, hcurrent, -, hget⟩ := ProvisioningJournal.get_noteFor hfile
            rw [heq, hget]
            split
            · next hchat =>
                subst hchat
                obtain rfl := Option.some.inj (h.symm.trans hcurrent)
                refine ⟨_, rfl, fun b hb => ?_, fun v hv => ?_, fun n hn => ?_⟩
                · simp [Changes.apply, hbot, hb]
                · simp [Changes.apply, htoken, hv]
                · simp [Changes.apply, hbridge, hn]
            · exact ⟨entry, h, .refl entry⟩
          · exact ⟨entry, heq ▸ h, .refl entry⟩
        · cases hst
      · cases hst
  | forget object chat' | pruneFinished object olderThanSeconds now => cases hsilent

theorem evident_leads (h : Run.Leads sys (fun _ e => e.silent = true) s t) {chat : Int}
    {entry : JournalEntry} (hget : s.file.get chat = some entry) :
    ∃ later, t.file.get chat = some later ∧ entry.Evident later := by
  induction h with
  | refl => exact ⟨entry, hget, .refl entry⟩
  | step _ hok hst ih =>
      obtain ⟨mid, hmid, hev⟩ := ih
      obtain ⟨later, hlater, hev'⟩ := evident_step hst hok hmid
      exact ⟨later, hlater, hev.trans hev'⟩

/-! ## attempts and their generations -/

/-- Every entry has its attempt, the last of its contact and the only one of its generation. -/
structure Kept (s : State) : Prop where
  current : ∀ chat a, s.current chat = some a →
    ∃ e, s.file.get chat = some e ∧ s.attempts[a]? = some ⟨chat, e.generation⟩
  tracked : ∀ chat e, s.file.get chat = some e → ∃ a, s.current chat = some a
  last : ∀ chat a b (x : Attempt), s.current chat = some a → s.attempts[b]? = some x →
    x.chat = chat → b ≤ a
  ordered : ∀ (a b : Nat) (x y : Attempt), s.attempts[a]? = some x → s.attempts[b]? = some y →
    x.chat = y.chat → a < b → x.generation < y.generation
  noted : ∀ n ∈ s.noted, n.current = some n.behalf

namespace Kept

theorem unique (h : s.Kept) {a b : Nat} {x y : Attempt} (ha : s.attempts[a]? = some x)
    (hb : s.attempts[b]? = some y) (hchat : x.chat = y.chat)
    (hgen : x.generation = y.generation) : a = b := by
  rcases Nat.lt_trichotomy a b with hlt | heq | hgt
  · have := h.ordered a b x y ha hb hchat hlt
    omega
  · exact heq
  · have := h.ordered b a y x hb ha hchat.symm hgt
    omega

/-- The attempt of an entry. -/
theorem attempt (h : s.Kept) {chat : Int} {e : JournalEntry} (he : s.file.get chat = some e) :
    ∃ a, s.current chat = some a ∧ s.attempts[a]? = some ⟨chat, e.generation⟩ := by
  obtain ⟨a, ha⟩ := h.tracked chat e he
  obtain ⟨e', he', hattempt⟩ := h.current chat a ha
  obtain rfl := Option.some.inj (he.symm.trans he')
  exact ⟨a, ha, hattempt⟩

/-- A change that leaves the attempts, and the generation of every entry. -/
theorem same (h : s.Kept) (hcurrent : t.current = s.current) (hattempts : t.attempts = s.attempts)
    (hnoted : ∀ n ∈ t.noted, n.current = some n.behalf)
    (hfile : ∀ chat, (t.file.get chat).map (·.generation) = (s.file.get chat).map (·.generation)) :
    t.Kept where
  current chat a ha := by
    obtain ⟨e, he, hattempt⟩ := h.current chat a (hcurrent ▸ ha)
    have hmap := hfile chat
    rw [he, Option.map_some] at hmap
    obtain ⟨e', he', hgen⟩ := Option.map_eq_some_iff.mp hmap
    exact ⟨e', he', by rw [hattempts, hattempt, hgen]⟩
  tracked chat e he := by
    have hmap := hfile chat
    rw [he, Option.map_some] at hmap
    obtain ⟨e', he', -⟩ := Option.map_eq_some_iff.mp hmap.symm
    exact hcurrent ▸ h.tracked chat e' he'
  last chat a b x ha hb := h.last chat a b x (hcurrent ▸ ha) (hattempts ▸ hb)
  ordered a b x y ha hb := h.ordered a b x y (hattempts ▸ ha) (hattempts ▸ hb)
  noted := hnoted

/-- Entries that are gone take their current attempt with them. -/
theorem gone (h : s.Kept) (out : Int → Bool) (hattempts : t.attempts = s.attempts)
    (hnoted : t.noted = s.noted)
    (hcurrent : ∀ chat, t.current chat = if out chat then none else s.current chat)
    (hfile : ∀ chat, t.file.get chat = if out chat then none else s.file.get chat) : t.Kept where
  current chat a ha := by
    rw [hcurrent] at ha
    split at ha
    · cases ha
    · next hin =>
        obtain ⟨e, he, hattempt⟩ := h.current chat a ha
        exact ⟨e, by rw [hfile, if_neg hin, he], by rw [hattempts, hattempt]⟩
  tracked chat e he := by
    rw [hfile] at he
    split at he
    · cases he
    · next hin =>
        obtain ⟨a, ha⟩ := h.tracked chat e he
        exact ⟨a, by rw [hcurrent, if_neg hin, ha]⟩
  last chat a b x ha hb := by
    rw [hcurrent] at ha
    split at ha
    · cases ha
    · exact h.last chat a b x ha (hattempts ▸ hb)
  ordered a b x y ha hb := h.ordered a b x y (hattempts ▸ ha) (hattempts ▸ hb)
  noted := hnoted ▸ h.noted

/-- One contact of a selection: it goes on with its attempt, or starts the next one. -/
theorem take (h : s.Kept) {e : JournalEntry}
    (hnew : s.file.get e.maxChatId = none → ∀ x ∈ s.attempts, x.chat ≠ e.maxChatId) :
    (s.take e).Kept := by
  cases hstarts : ProvisioningJournal.startsAttempt (s.file.get e.maxChatId) with
  | false =>
      refine h.same (by simp [State.take, hstarts]) (by simp [State.take, hstarts])
        (by simpa [State.take, hstarts] using h.noted) fun chat => ?_
      rw [get_take]
      split
      · next hchat =>
          subst hchat
          cases hget : s.file.get e.maxChatId with
          | none => simp [hget, ProvisioningJournal.startsAttempt] at hstarts
          | some previous =>
              rw [hget] at hstarts
              exact congrArg some (ProvisioningJournal.generation_merged e hstarts)
      · rfl
  | true =>
      let entry := ProvisioningJournal.merged (s.file.get e.maxChatId) e
      have hattempts : (s.take e).attempts = s.attempts ++ [⟨e.maxChatId, entry.generation⟩] := by
        simp [State.take, hstarts, entry]
      have hcurrent (chat : Int) : (s.take e).current chat =
          if chat = e.maxChatId then some s.attempts.length else s.current chat := by
        simp [State.take, hstarts, Function.update_apply]
      -- The attempts of this contact come before the new one, with smaller generations.
      have hbelow (b : Nat) (x : Attempt) (hb : s.attempts[b]? = some x)
          (hx : x.chat = e.maxChatId) : x.generation < entry.generation := by
        cases hget : s.file.get e.maxChatId with
        | none => exact absurd hx (hnew hget x (List.mem_of_getElem? hb))
        | some previous =>
            rw [hget] at hstarts
            have hgen : entry.generation = previous.generation + 1 := by
              simpa [entry, hget] using ProvisioningJournal.generation_merged_succ e hstarts
            obtain ⟨a, ha, hattempt⟩ := h.attempt hget
            rcases Nat.lt_or_eq_of_le (h.last _ a b x ha hb hx) with hlt | rfl
            · have := h.ordered b a x _ hb hattempt hx hlt
              change x.generation < previous.generation at this
              omega
            · obtain rfl := Option.some.inj (hb.symm.trans hattempt)
              change previous.generation < entry.generation
              omega
      have hold {b : Nat} {x : Attempt} (hb : (s.take e).attempts[b]? = some x) :
          s.attempts[b]? = some x ∨
            b = s.attempts.length ∧ x = ⟨e.maxChatId, entry.generation⟩ := by
        rw [hattempts, List.getElem?_append] at hb
        split at hb
        · exact .inl hb
        · next hge =>
            obtain ⟨hlt, hx⟩ := List.getElem?_eq_some_iff.mp hb
            have hzero : b - s.attempts.length = 0 := Nat.lt_one_iff.mp hlt
            refine .inr ⟨by omega, ?_⟩
            simpa [hzero] using hx.symm
      have hkept {b : Nat} {x : Attempt} (hb : s.attempts[b]? = some x) :
          (s.take e).attempts[b]? = some x := by
        rw [hattempts]
        exact (List.getElem?_append_left (List.getElem?_eq_some_iff.mp hb).1).trans hb
      constructor
      case current =>
        intro chat a ha
        rw [hcurrent] at ha
        rw [get_take]
        split at ha
        · next hchat =>
            obtain rfl := Option.some.inj ha
            refine ⟨entry, if_pos hchat, ?_⟩
            simp [hattempts, hchat]
        · next hchat =>
            obtain ⟨old, hold, hattempt⟩ := h.current chat a ha
            exact ⟨old, (if_neg hchat).trans hold, hkept hattempt⟩
      case tracked =>
        intro chat old hget
        rw [hcurrent]
        rw [get_take] at hget
        split at hget
        · next hchat => exact ⟨_, if_pos hchat⟩
        · next hchat =>
            rw [if_neg hchat]
            exact h.tracked chat old hget
      case last =>
        intro chat a b x ha hb hx
        rw [hcurrent] at ha
        split at ha
        · next hchat =>
            obtain rfl := Option.some.inj ha
            rcases hold hb with hb | ⟨rfl, -⟩
            · exact Nat.le_of_lt (List.getElem?_eq_some_iff.mp hb).1
            · exact Nat.le_refl _
        · next hchat =>
            rcases hold hb with hb | ⟨rfl, rfl⟩
            · exact h.last chat a b x ha hb hx
            · exact absurd hx.symm hchat
      case ordered =>
        intro a b x y ha hb hchat hlt
        rcases hold ha with ha | ⟨rfl, rfl⟩
        · rcases hold hb with hb | ⟨rfl, rfl⟩
          · exact h.ordered a b x y ha hb hchat hlt
          · exact hbelow a x ha hchat
        · rcases hold hb with hb | ⟨rfl, rfl⟩
          · have := (List.getElem?_eq_some_iff.mp hb).1
            omega
          · omega
      case noted => simpa [State.take, hstarts] using h.noted

theorem takes (h : s.Kept) {entries : List JournalEntry}
    (hnew : ∀ e ∈ entries, s.file.get e.maxChatId = none →
      ∀ x ∈ s.attempts, x.chat ≠ e.maxChatId) : (entries.foldl State.take s).Kept := by
  induction entries generalizing s with
  | nil => exact h
  | cons e entries ih =>
      obtain ⟨he, hrest⟩ := List.forall_mem_cons.mp hnew
      refine ih (h.take he) fun y hy hnone => ?_
      rw [get_take] at hnone
      split at hnone
      · cases hnone
      · next hne =>
          intro x hx
          simp only [State.take] at hx
          split at hx
          · rcases List.mem_append.mp hx with hold | hnew
            · exact hrest y hy hnone x hold
            · obtain rfl := List.mem_singleton.mp hnew
              exact fun heq => hne heq.symm
          · exact hrest y hy hnone x hx

/-- A note made on behalf of an attempt that is identified. -/
theorem note (h : s.Kept) {object behalf : Nat} {chat : Int} {names : Bool} {c : Changes}
    {now : Int} {a : Attempt} (ha : s.attempts[behalf]? = some a) (hchat : a.chat = chat)
    (hok : (names || decide (s.current chat = some behalf)) = true) :
    (s.note object chat behalf (if names then some a.generation else none) c now).Kept := by
  simp only [State.note]
  split
  · next file hfile =>
      obtain ⟨current, hcurrent, hgen, hget⟩ := ProvisioningJournal.get_noteFor hfile
      obtain ⟨at_, hat, hattempt⟩ := h.attempt hcurrent
      refine h.same rfl rfl (List.forall_mem_cons.mpr ⟨?_, h.noted⟩) fun chat' => ?_
      · cases names with
        | false => simpa using hok
        | true =>
            have hsame : a.generation = current.generation := by simpa using hgen
            obtain rfl := h.unique ha hattempt hchat hsame
            exact hat
      · change (file.get chat').map _ = _
        rw [hget]
        split
        · next heq => rw [heq, hcurrent]; rfl
        · rfl
  · exact h.same rfl rfl h.noted fun _ => rfl

theorem step (h : s.Kept) {e : Event} (hok : s.identifies e = true) (hst : s.step e = some t) :
    t.Kept := by
  cases e with
  | load object =>
      obtain rfl := Option.some.inj hst
      split
      · exact h
      · exact h.same rfl rfl h.noted fun _ => rfl
  | refresh object =>
      obtain rfl := Option.some.inj hst
      exact h.same rfl rfl h.noted fun _ => rfl
  | begin_ object entries =>
      obtain rfl := Option.some.inj hst
      have htakes : (entries.foldl State.take s).Kept := h.takes fun e he hnone x hx => by
        have hfresh := List.all_eq_true.mp hok e he
        simp only [hnone, Option.isSome_none, Bool.false_or] at hfresh
        simpa using List.all_eq_true.mp hfresh x hx
      exact htakes.same rfl rfl htakes.noted fun _ => rfl
  | note object chat behalf names c now =>
      simp only [State.step] at hst
      split at hst
      · next a ha =>
          split at hst
          · next hchat =>
              obtain rfl := Option.some.inj hst
              exact h.note ha hchat hok
          · cases hst
      · cases hst
  | forget object chat =>
      simp only [State.step] at hst
      split at hst
      · obtain rfl := Option.some.inj hst
        refine h.gone (fun chat' => decide (chat' = chat)) rfl rfl (fun chat' => ?_)
          fun chat' => ?_
        · simp [State.read, Function.update_apply]
        · exact (ProvisioningJournal.get_forget s.file chat chat').trans (by simp)
      · obtain rfl := Option.some.inj hst
        exact h.same rfl rfl h.noted fun _ => rfl
  | pruneFinished object olderThanSeconds now =>
      obtain rfl := Option.some.inj hst
      refine h.gone (fun chat => (s.file.get chat).any fun e =>
        e.finished && s.doomed (now - olderThanSeconds) chat) rfl rfl (fun chat => rfl)
        fun chat => (ProvisioningJournal.get_prune _ _ _).trans ?_
      cases hget : s.file.get chat with
      | none => rfl
      | some e =>
          have hid := ProvisioningJournal.maxChatId_of_get hget
          rw [Option.filter_some, Option.any_some, hid]
          cases e.finished && s.doomed (now - olderThanSeconds) chat <;> rfl

theorem start : sys.start.Kept where
  current _ _ h := by cases h
  tracked _ _ h := by cases h
  last _ _ _ _ h := by cases h
  ordered _ _ _ _ h := by cases h
  noted := nofun

theorem sound (h : s.Kept) : s.Sound where
  others _ _ hst _ habout := others_step hst habout
  evidence _ hleads _ _ hget := evident_leads hleads hget
  finished object entries t hst chat e hget hfin := by
    obtain rfl := Option.some.inj hst
    exact finished_takes (s := s) hget hfin
  noted := h.noted
  unique _ _ _ _ ha hb := h.unique ha hb

end Kept

end State

/-- **The journal loses no evidence and obeys no dead attempt**, in every run in which notes are
identified and no contact that was removed is selected anew. -/
theorem journal_obeys_no_dead_attempt (s : State)
    (h : Run.Reaches sys (fun s e => s.identifies e = true) s) : s.Sound := by
  have hkept : s.Kept := by
    induction h with
    | start => exact .start
    | step _ hok hst ih => exact ih.step hok hst
  exact hkept.sound

/-! ## an attempt that was given up -/

def picked : JournalEntry := { maxChatId := 9, expectedUsername := "mx_anna_bot" }

def failed : Changes := { state := some .failedPermanent }

def healthy : Changes := { state := some .healthy }

/-- The first attempt fails, a second one is begun, and the first asks to be marked healthy. -/
def overtaken (names : Bool) : List Event :=
  [.begin_ 0 [picked], .note 0 9 0 true failed 1, .begin_ 1 [picked], .note 0 9 0 names healthy 2]

theorem journal_obeys_no_dead_attempt_overtaken :
    ∃ s, Run.Reaches sys (fun s e => s.identifies e = true) s ∧
      s.noted = [⟨0, some 0⟩] ∧ s.attempts = [⟨9, 1⟩, ⟨9, 2⟩] ∧ s.Sound := by
  obtain ⟨s, hs, hfinal⟩ := Run.Reaches.exists_of_play sys State.identifies (overtaken true)
    (fun s => decide (s.noted = [⟨0, some 0⟩] ∧ s.attempts = [⟨9, 1⟩, ⟨9, 2⟩])) (by decide +kernel)
  obtain ⟨hnoted, hattempts⟩ := of_decide_eq_true hfinal
  exact ⟨s, hs, hnoted, hattempts, journal_obeys_no_dead_attempt s hs⟩

/-- A note that names no generation settles the second attempt; and once the contact has been
forgotten and selected anew, one that does settles the third. -/
theorem not_journal_obeys_no_dead_attempt :
    ∃ s, Run.Reaches sys Run.anyStep s ∧
      s.noted = [⟨0, some 2⟩, ⟨0, some 1⟩, ⟨0, some 0⟩] ∧
      s.attempts = [⟨9, 1⟩, ⟨9, 2⟩, ⟨9, 1⟩] ∧ ¬s.Sound := by
  obtain ⟨s, hs, hfinal⟩ := Run.Reaches.exists_of_play sys (fun _ _ => true)
    (overtaken false ++ [.forget 0 9, .begin_ 0 [picked], .note 1 9 0 true healthy 3])
    (fun s => decide (s.noted = [⟨0, some 2⟩, ⟨0, some 1⟩, ⟨0, some 0⟩] ∧
      s.attempts = [⟨9, 1⟩, ⟨9, 2⟩, ⟨9, 1⟩])) (by decide +kernel)
  obtain ⟨hnoted, hattempts⟩ := of_decide_eq_true hfinal
  refine ⟨s, hs.mono fun _ _ _ => trivial, hnoted, hattempts, fun h => ?_⟩
  exact absurd (h.noted ⟨0, some 2⟩ (by simp [hnoted])) (by decide)

end JournalFile

end Telemax.Provisioning
