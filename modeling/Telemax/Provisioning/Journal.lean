import Mathlib.Data.List.Basic

/-!
# Telemax.Provisioning.Journal

The provisioning journal: one entry for each contact, in the order they were
selected, and what `begin` and `note` do to it.  The file, its lock and the
cache over it are one value here: every mutation re-reads the file first.
-/

namespace Telemax.Provisioning

/-- How far one contact's bot has got. -/
inductive ItemState
  | pending
  | awaitingConfirmation
  | botCreated
  | oldBotStopped
  | oldBotDeleted
  | waitingUsernameRelease
  | tokenSaved
  | workerStarted
  | startSent
  | healthy
  | failedRetryable
  | failedPermanent
  | abandoned
  deriving DecidableEq, Repr

def terminal : List ItemState := [.healthy, .failedPermanent, .abandoned]

/-- Why a bridge could not be built. -/
inductive ProvisioningFailure
  | botCreateLimitExceeded
  | floodWait
  | usernameOccupied
  | botNotManageable
  | managedBotConfirmationRequired
  | networkError
  | unknownProvisioningError
  deriving DecidableEq, Repr

namespace ProvisioningFailure

def retryable : ProvisioningFailure → Bool
  | .botCreateLimitExceeded | .usernameOccupied | .botNotManageable => false
  | _ => true

/-- `FAILURE_MESSAGES`. -/
def message : ProvisioningFailure → String
  | .botCreateLimitExceeded => "достигнут лимит ботов Telegram-аккаунта"
  | .floodWait => "Telegram просит подождать — попробуйте через несколько минут"
  | .usernameOccupied => "детерминированный username занят другим Telegram-аккаунтом"
  | .botNotManageable =>
      "бот с этим именем есть, но страж им не управляет — он создан вручную. " ++
        "Удалите его в @BotFather и создайте заново через стража"
  | .managedBotConfirmationRequired => "создание бота не подтверждено"
  | .networkError => "Telegram не ответил"
  | .unknownProvisioningError => "Telegram не выдал токен бота"

end ProvisioningFailure

/-- One contact's provisioning, as it will be found again. -/
structure JournalEntry where
  maxChatId : Int
  expectedUsername : String
  title : String := ""
  maxPeerId : Option Int := none
  state : ItemState := .pending
  /-- The name of the variable that holds the token. -/
  tokenEnv : Option String := none
  telegramBotId : Option Int := none
  bridgeName : Option String := none
  error : Option String := none
  failure : Option ProvisioningFailure := none
  needsOpen : Bool := false
  generation : Nat := 1
  deriving DecidableEq, Repr

def JournalEntry.finished (e : JournalEntry) : Bool := e.state = .healthy

/-- The keyword arguments of `note`: `none` where a field is not named. -/
structure Changes where
  state : Option ItemState := none
  tokenEnv : Option (Option String) := none
  telegramBotId : Option (Option Int) := none
  bridgeName : Option (Option String) := none
  error : Option (Option String) := none
  failure : Option (Option ProvisioningFailure) := none
  needsOpen : Option Bool := none
  deriving DecidableEq, Repr

/-- `replace(current, **changes)`. -/
def Changes.apply (c : Changes) (e : JournalEntry) : JournalEntry :=
  { e with
    state := c.state.getD e.state
    tokenEnv := c.tokenEnv.getD e.tokenEnv
    telegramBotId := c.telegramBotId.getD e.telegramBotId
    bridgeName := c.bridgeName.getD e.bridgeName
    error := c.error.getD e.error
    failure := c.failure.getD e.failure
    needsOpen := c.needsOpen.getD e.needsOpen }

@[simp] theorem Changes.maxChatId_apply (c : Changes) (e : JournalEntry) :
    (c.apply e).maxChatId = e.maxChatId := rfl

@[simp] theorem Changes.state_apply (c : Changes) (e : JournalEntry) :
    (c.apply e).state = c.state.getD e.state := rfl

/-- The attempts, at most one for a contact. -/
structure ProvisioningJournal where
  entries : List JournalEntry
  nodup : (entries.map (·.maxChatId)).Nodup

namespace ProvisioningJournal

def empty : ProvisioningJournal := ⟨[], .nil⟩

def get (j : ProvisioningJournal) (chat : Int) : Option JournalEntry :=
  j.entries.find? (·.maxChatId == chat)

/-- Just these contacts, in the order asked for. -/
def selected (j : ProvisioningJournal) (chats : List Int) : List JournalEntry :=
  chats.filterMap j.get

/-- `entries[chat] = entry`, at its old place or at the end. -/
def put (j : ProvisioningJournal) (e : JournalEntry) : ProvisioningJournal where
  entries :=
    if (j.get e.maxChatId).isSome then
      j.entries.map fun old => if old.maxChatId = e.maxChatId then e else old
    else j.entries ++ [e]
  nodup := by
    split
    · have hids : ∀ old : JournalEntry,
          (if old.maxChatId = e.maxChatId then e else old).maxChatId = old.maxChatId := by
        intro old
        split
        · next h => exact h.symm
        · rfl
      simpa only [List.map_map, Function.comp_def, hids] using j.nodup
    · next hnone =>
        rw [Option.not_isSome_iff_eq_none, get, List.find?_eq_none] at hnone
        rw [List.map_append, List.map_singleton, List.nodup_append]
        refine ⟨j.nodup, List.nodup_cons.mpr ⟨List.not_mem_nil, .nil⟩, ?_⟩
        rintro _ ha _ hb rfl
        obtain ⟨old, hold, heq⟩ := List.mem_map.mp ha
        exact hnone old hold (by simpa using heq.trans (List.mem_singleton.mp hb))

/-- `entries.pop(chat, None)`. -/
def forget (j : ProvisioningJournal) (chat : Int) : ProvisioningJournal where
  entries := j.entries.filter (·.maxChatId != chat)
  nodup := j.nodup.sublist (List.filter_sublist.map _)

/-- Move one entry on; `none` is the `KeyError`. -/
def note (j : ProvisioningJournal) (chat : Int) (c : Changes) : Option ProvisioningJournal :=
  (j.get chat).map fun current => j.put (c.apply current)

/-- One contact's entry after a `begin`. -/
def merged (previous : Option JournalEntry) (requested : JournalEntry) : JournalEntry :=
  match previous with
  | none => requested
  | some previous =>
      if previous.finished then previous
      else if previous.state ∈ terminal then
        { requested with
          generation := previous.generation + 1
          telegramBotId := previous.telegramBotId
          tokenEnv := previous.tokenEnv
          bridgeName := previous.bridgeName }
      else
        { previous with
          title := if requested.title = "" then previous.title else requested.title
          error := none }

/-- Record a selection, keeping everything already in the journal. -/
def begin (j : ProvisioningJournal) (entries : List JournalEntry) : ProvisioningJournal :=
  entries.foldl (fun j e => j.put (merged (j.get e.maxChatId) e)) j

/-! ## lookups -/

/-- A lookup finds an entry iff it is there: no contact has two. -/
theorem get_eq_some_iff {j : ProvisioningJournal} {chat : Int} {e : JournalEntry} :
    j.get chat = some e ↔ e ∈ j.entries ∧ e.maxChatId = chat := by
  obtain ⟨entries, nodup⟩ := j
  simp only [get]
  induction entries with
  | nil => simp
  | cons x xs ih =>
      obtain ⟨hx, hxs⟩ := List.nodup_cons.mp nodup
      by_cases h : x.maxChatId = chat
      · have hnot : e.maxChatId = chat → e ∉ xs := fun he hmem =>
          hx (List.mem_map.mpr ⟨e, hmem, he.trans h.symm⟩)
        simp only [List.find?_cons, h, beq_self_eq_true, Option.some.injEq, List.mem_cons]
        constructor
        · rintro rfl
          exact ⟨.inl rfl, h⟩
        · rintro ⟨rfl | hmem, he⟩
          · rfl
          · exact absurd hmem (hnot he)
      · have hne : e.maxChatId = chat → e ≠ x := fun he hex => h (hex ▸ he)
        simp only [List.find?_cons, beq_eq_false_iff_ne.mpr h, List.mem_cons]
        rw [ih hxs]
        constructor
        · exact fun ⟨hmem, he⟩ => ⟨.inr hmem, he⟩
        · rintro ⟨rfl | hmem, he⟩
          · exact absurd rfl (hne he)
          · exact ⟨hmem, he⟩

theorem maxChatId_of_get {j : ProvisioningJournal} {chat : Int} {e : JournalEntry}
    (h : j.get chat = some e) : e.maxChatId = chat :=
  (get_eq_some_iff.mp h).2

/-- An entry is found under its own contact. -/
def find (j : ProvisioningJournal) (chat : Int) : Option { e : JournalEntry // e.maxChatId = chat } :=
  match h : j.get chat with
  | some e => some ⟨e, maxChatId_of_get h⟩
  | none => none

/-- Two journals agree on a lookup when they have the same entries for that contact. -/
theorem get_eq_of_mem_iff {j : ProvisioningJournal} {chat : Int} {o : Option JournalEntry}
    (h : ∀ e, (e ∈ j.entries ∧ e.maxChatId = chat) ↔ o = some e) : j.get chat = o := by
  ext e
  rw [get_eq_some_iff, h]

theorem get_put (j : ProvisioningJournal) (e : JournalEntry) (chat : Int) :
    (j.put e).get chat = if chat = e.maxChatId then some e else j.get chat := by
  refine get_eq_of_mem_iff fun x => ?_
  by_cases hsome : (j.get e.maxChatId).isSome
  · obtain ⟨old, hold⟩ := Option.isSome_iff_exists.mp hsome
    obtain ⟨holdmem, holdid⟩ := get_eq_some_iff.mp hold
    simp only [put, hsome, if_true, List.mem_map]
    constructor
    · rintro ⟨⟨y, hy, rfl⟩, hid⟩
      by_cases heq : y.maxChatId = e.maxChatId
      · simp only [heq, if_true] at hid ⊢
        rw [if_pos hid.symm]
      · simp only [heq, if_false] at hid ⊢
        rw [if_neg fun h => heq (hid.trans h), get_eq_some_iff]
        exact ⟨hy, hid⟩
    · intro h
      split at h
      · next hchat =>
          obtain rfl := Option.some.inj h
          exact ⟨⟨old, holdmem, by rw [if_pos holdid]⟩, hchat.symm⟩
      · next hchat =>
          obtain ⟨hmem, hid⟩ := get_eq_some_iff.mp h
          exact ⟨⟨x, hmem, if_neg fun heq => hchat (hid ▸ heq)⟩, hid⟩
  · have hfresh : ∀ y ∈ j.entries, y.maxChatId ≠ e.maxChatId := fun y hy heq =>
      hsome (Option.isSome_iff_exists.mpr ⟨y, get_eq_some_iff.mpr ⟨hy, heq⟩⟩)
    simp only [put, hsome, Bool.false_eq_true, if_false, List.mem_append, List.mem_singleton]
    constructor
    · rintro ⟨hmem | rfl, hid⟩
      · rw [if_neg fun h => hfresh x hmem (hid.trans h), get_eq_some_iff]
        exact ⟨hmem, hid⟩
      · rw [if_pos hid.symm]
    · intro h
      split at h
      · next hchat =>
          obtain rfl := Option.some.inj h
          exact ⟨.inr rfl, hchat.symm⟩
      · obtain ⟨hmem, hid⟩ := get_eq_some_iff.mp h
        exact ⟨.inl hmem, hid⟩

theorem get_note {j j' : ProvisioningJournal} {chat : Int} {c : Changes}
    (h : j.note chat c = some j') (chat' : Int) :
    j'.get chat' = if chat' = chat then (j.get chat).map c.apply else j.get chat' := by
  obtain ⟨e, he, rfl⟩ := Option.map_eq_some_iff.mp h
  rw [get_put, Changes.maxChatId_apply, maxChatId_of_get he, he, Option.map_some]

theorem get_forget (j : ProvisioningJournal) (chat chat' : Int) :
    (j.forget chat).get chat' = if chat' = chat then none else j.get chat' := by
  refine get_eq_of_mem_iff fun e => ?_
  simp only [forget, List.mem_filter, bne_iff_ne, ne_eq]
  split
  · next h => simp [h]
  · next h =>
      rw [get_eq_some_iff]
      exact ⟨fun ⟨⟨hmem, _⟩, hid⟩ => ⟨hmem, hid⟩,
        fun ⟨hmem, hid⟩ => ⟨⟨hmem, fun heq => h (hid ▸ heq)⟩, hid⟩⟩

theorem maxChatId_merged (j : ProvisioningJournal) (e : JournalEntry) :
    (merged (j.get e.maxChatId) e).maxChatId = e.maxChatId := by
  cases hget : j.get e.maxChatId with
  | none => rfl
  | some previous =>
      have hid : previous.maxChatId = e.maxChatId := maxChatId_of_get hget
      simp only [merged]
      split
      · exact hid
      · split
        · rfl
        · exact hid

/-- A finished attempt is left exactly as it is. -/
theorem get_begin_finished {j : ProvisioningJournal} {chat : Int} {e : JournalEntry}
    (h : j.get chat = some e) (hfin : e.finished = true) (entries : List JournalEntry) :
    (j.begin entries).get chat = some e := by
  induction entries generalizing j with
  | nil => exact h
  | cons x xs ih =>
      refine ih ?_
      change (j.put (merged (j.get x.maxChatId) x)).get chat = some e
      by_cases hid : x.maxChatId = chat
      · have hmerged : merged (j.get x.maxChatId) x = e := by
          rw [hid, h]
          exact if_pos hfin
        rw [hmerged, get_put, if_pos (maxChatId_of_get h).symm]
      · rw [get_put, maxChatId_merged, if_neg (Ne.symm hid), h]

end ProvisioningJournal

end Telemax.Provisioning
