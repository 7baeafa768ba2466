import Mathlib.Data.List.Chain
import Telemax.Service.Steps

/-!
# Telemax.Service.Told

What is queued about one problem.  In every run the alerts of a key alternate between warnings and
a recovery, warnings in a row are a cooldown apart, and the incident is open exactly when the last
of them is a warning; and a whole evaluation leaves each incident as its check found it.
-/

namespace Telemax.Service

/-! ## the history of a key -/

/-- What may follow what. -/
def Follows (cooldown : Int) (x y : Severity × Int) : Prop :=
  match y.1 with
  | .warning => x.1 = .recovery ∨ x.2 + cooldown ≤ y.2
  | .recovery => x.1 = .warning

/-- The alerts of a key, in turn. -/
structure InTurn (cooldown : Int) (said : List (Severity × Int)) : Prop where
  first : ∀ x, said.head? = some x → x.1 = .warning
  chain : said.IsChain (Follows cooldown)

theorem InTurn.nil {cooldown : Int} : InTurn cooldown [] := ⟨nofun, .nil⟩

theorem InTurn.append {cooldown : Int} {said : List (Severity × Int)} {y : Severity × Int}
    (h : InTurn cooldown said) (hfirst : said = [] → y.1 = .warning)
    (hlast : ∀ x, said.getLast? = some x → Follows cooldown x y) :
    InTurn cooldown (said ++ [y]) where
  first x hx := by
    cases said with
    | nil =>
      obtain rfl : y = x := by simpa using hx
      exact hfirst rfl
    | cons z rest => exact h.first x hx
  chain := by
    refine List.isChain_append.mpr ⟨h.chain, .singleton y, fun x hx z hz => ?_⟩
    obtain rfl : y = z := by simpa using hz
    exact hlast x hx

/-- The row of the key says what was said last. -/
def Agrees (incident : Option Incident) (last : Option (Severity × Int)) : Prop :=
  match incident with
  | none => last = none
  | some ⟨_, lastAlertAt, none⟩ => last = some (.warning, lastAlertAt)
  | some ⟨_, _, some resolvedAt⟩ => last = some (.recovery, resolvedAt)

/-- Everything that was said of every key, and the rows of the incidents. -/
structure Alerts.Told (a : Alerts) (cooldown : Int) : Prop where
  inTurn : ∀ key, InTurn cooldown (a.said key)
  agrees : ∀ key, Agrees (a.incidents.get? key) (a.said key).getLast?

namespace Alerts

variable {a : Alerts} {key text : String} {cooldown stamp : Int}

theorem Told.start : Alerts.empty.Told cooldown where
  inTurn _ := .nil
  agrees _ := rfl

/-- An alert is queued with the row it goes with. -/
theorem Told.queue (h : a.Told cooldown) {severity : Severity} {incident : Incident}
    (hfirst : a.said key = [] → severity = .warning)
    (hlast : ∀ x, (a.said key).getLast? = some x → Follows cooldown x (severity, stamp))
    (hrow : Agrees (some incident) (some (severity, stamp))) :
    ({ a with incidents := a.incidents.insert key incident }.queue key severity text stamp).Told
      cooldown where
  inTurn other := by
    rw [said_queue]
    by_cases hkey : key = other
    · subst hkey
      rw [if_pos rfl]
      exact (h.inTurn key).append hfirst hlast
    · rw [if_neg hkey, List.append_nil]
      exact h.inTurn other
  agrees other := by
    rw [said_queue]
    show Agrees ((a.incidents.insert key incident).get? other) _
    rw [Dict.get?_insert]
    by_cases hkey : key = other
    · subst hkey
      rw [if_pos rfl, if_pos rfl, List.getLast?_concat]
      exact hrow
    · rw [if_neg hkey, if_neg (Ne.symm hkey), List.append_nil]
      exact h.agrees other

theorem Told.openIncident (h : a.Told cooldown) :
    (a.openIncident key text cooldown stamp).1.Told cooldown := by
  have hrow := h.agrees key
  unfold Alerts.openIncident
  cases hincident : a.incidents.get? key with
  | none =>
    rw [hincident] at hrow
    refine h.queue (fun _ => rfl) (fun x hx => ?_) rfl
    rw [show (a.said key).getLast? = none from hrow] at hx
    cases hx
  | some incident =>
    obtain ⟨openedAt, lastAlertAt, resolvedAt⟩ := incident
    rw [hincident] at hrow
    cases resolvedAt with
    | none =>
      simp only
      split
      · exact h
      · next hlate =>
        refine h.queue (fun _ => rfl) (fun x hx => .inr ?_) rfl
        obtain rfl : (Severity.warning, lastAlertAt) = x :=
          Option.some.inj ((show (a.said key).getLast? = _ from hrow) ▸ hx)
        show lastAlertAt + cooldown ≤ stamp
        omega
    | some resolved =>
      refine h.queue (fun _ => rfl) (fun x hx => .inl ?_) rfl
      obtain rfl : (Severity.recovery, resolved) = x :=
        Option.some.inj ((show (a.said key).getLast? = _ from hrow) ▸ hx)
      rfl

theorem Told.resolveIncident (h : a.Told cooldown) :
    (a.resolveIncident key (some text) stamp).1.Told cooldown := by
  have hrow := h.agrees key
  unfold Alerts.resolveIncident
  cases hincident : a.incidents.get? key with
  | none => exact h
  | some incident =>
    obtain ⟨openedAt, lastAlertAt, resolvedAt⟩ := incident
    rw [hincident] at hrow
    cases resolvedAt with
    | none =>
      have hlast : (a.said key).getLast? = some (.warning, lastAlertAt) := hrow
      refine h.queue (fun hnil => ?_) (fun x hx => ?_) rfl
      · rw [hnil] at hlast
        cases hlast
      · obtain rfl : (Severity.warning, lastAlertAt) = x := Option.some.inj (hlast ▸ hx)
        rfl
    | some resolved => exact h

theorem Told.decide (h : a.Told alertCooldownMs) {verdict : Verdict} :
    (a.decide key verdict stamp).Told alertCooldownMs := by
  cases verdict with
  | raise text => exact h.openIncident
  | clear text => exact h.resolveIncident
  | leave => exact h

theorem said_mark {alert : Nat × Alert} {delivered : Bool} :
    (a.mark alert delivered stamp).said key = a.said key := by
  simp only [mark]
  split
  · exact said_markSent
  · split
    · exact said_markFailed
    · exact said_markRetry

theorem incidents_mark {alert : Nat × Alert} {delivered : Bool} :
    (a.mark alert delivered stamp).incidents = a.incidents := by
  simp only [mark]
  split
  · rfl
  · split <;> rfl

theorem Told.mark (h : a.Told cooldown) {alert : Nat × Alert} {delivered : Bool} :
    (a.mark alert delivered stamp).Told cooldown where
  inTurn key := by
    rw [said_mark]
    exact h.inTurn key
  agrees key := by
    rw [said_mark, incidents_mark]
    exact h.agrees key

/-- An incident is open iff the last that was said of it is a warning. -/
theorem Told.isOpen_iff (h : a.Told cooldown) :
    a.isOpen key = true ↔ ∃ at_, (a.said key).getLast? = some (.warning, at_) := by
  have hrow := h.agrees key
  unfold isOpen
  cases hincident : a.incidents.get? key with
  | none =>
    rw [hincident] at hrow
    simp [show (a.said key).getLast? = none from hrow]
  | some incident =>
    obtain ⟨openedAt, lastAlertAt, resolvedAt⟩ := incident
    rw [hincident] at hrow
    cases resolvedAt with
    | none => simp [show (a.said key).getLast? = some (.warning, lastAlertAt) from hrow]
    | some resolved => simp [show (a.said key).getLast? = some (.recovery, resolved) from hrow]

end Alerts

/-- What was said of every key, in a state. -/
def State.Told (s : State) : Prop := s.alerts.Told alertCooldownMs

theorem State.Told.step {s t : State} {e : Event} (hs : s.Told) (h : Service.step s e = some t) :
    t.Told := by
  unfold State.Told at hs ⊢
  cases moved_step h with
  | same hlike | wakes hlike => exact hlike.alerts ▸ hs
  | decides | reports => exact hs.decide
  | skips | sleeps | claims | absent | deletes | restarts => exact hs
  | begins =>
    rw [State.alerts_after]
    exact hs
  | goes hloop ha =>
    rw [State.alerts_after, ha]
    exact hs
  | marks => exact hs.mark

theorem State.told {old : Old} {s : State} (h : Run.Reaches (system old) Run.anyStep s) :
    s.Told := by
  have hstart : (system old).start.Told := Alerts.Told.start
  exact h.invariant hstart fun _ _ _ hs _ hst => hs.step hst

/-- **Alerts in turn.**  In every run the alerts of a key begin with a warning, a recovery follows
a warning, a warning follows a recovery or comes a cooldown after the last one, and the incident is
open exactly when the last of them is a warning. -/
theorem alerts_in_turn {old : Old} {s : State}
    (h : Run.Reaches (system old) Run.anyStep s) (key : String) :
    InTurn alertCooldownMs (s.alerts.said key) ∧
      (s.alerts.isOpen key = true ↔
        ∃ at_, (s.alerts.said key).getLast? = some (.warning, at_)) :=
  ⟨(State.told h).inTurn key, (State.told h).isOpen_iff⟩

theorem alerts_in_turn_recovered : ∃ s : State,
    s.alerts.said "max-offline" = [(.warning, 5), (.recovery, 8)] ∧
      InTurn alertCooldownMs (s.alerts.said "max-offline") := by
  obtain ⟨s, hs, hfinal⟩ := Run.Reaches.exists_of_play (system fresh) (fun _ _ => true)
    (outage ++ recovery)
    (fun s => s.alerts.said "max-offline" = [(.warning, 5), (.recovery, 8)]) (by decide +kernel)
  exact ⟨s, of_decide_eq_true hfinal, (alerts_in_turn (hs.mono fun _ _ _ => trivial) _).1⟩

/-! ## a whole evaluation -/

/-- The incident of a check is as the check found it. -/
def Alerts.AsFound (a : Alerts) (check : String × Verdict) : Prop :=
  match check.2 with
  | .raise _ => a.isOpen check.1 = true
  | .clear _ => a.isOpen check.1 = false
  | .leave => True

namespace Alerts

variable {a : Alerts} {key other : String} {verdict : Verdict} {stamp : Int}

theorem isOpen_decide_ne (h : other ≠ key) :
    (a.decide key verdict stamp).isOpen other = a.isOpen other := by
  have hkept (i : Incident) : (a.incidents.insert key i).get? other = a.incidents.get? other := by
    rw [Dict.get?_insert, if_neg h]
  cases verdict with
  | raise text =>
    simp only [decide, openIncident]
    split
    · split
      · rfl
      · simp only [isOpen, queue, hkept]
    · simp only [isOpen, queue, hkept]
  | clear text =>
    simp only [decide, resolveIncident]
    split
    · simp only [isOpen, queue, hkept]
    · rfl
  | leave => rfl

theorem asFound_decide : (a.decide key verdict stamp).AsFound (key, verdict) := by
  cases verdict with
  | raise text =>
    show ((a.openIncident key text alertCooldownMs stamp).1).isOpen key = true
    unfold openIncident
    cases hincident : a.incidents.get? key with
    | none => simp [isOpen, queue, Dict.get?_insert]
    | some incident =>
      obtain ⟨openedAt, lastAlertAt, resolvedAt⟩ := incident
      cases resolvedAt with
      | none =>
        simp only
        split
        · simp [isOpen, hincident]
        · simp [isOpen, queue, Dict.get?_insert]
      | some resolved => simp [isOpen, queue, Dict.get?_insert]
  | clear text =>
    show ((a.resolveIncident key (some text) stamp).1).isOpen key = false
    unfold resolveIncident
    cases hincident : a.incidents.get? key with
    | none => simp [isOpen, hincident]
    | some incident =>
      obtain ⟨openedAt, lastAlertAt, resolvedAt⟩ := incident
      cases resolvedAt with
      | none => simp [isOpen, queue, Dict.get?_insert]
      | some resolved => simp [isOpen, hincident]
  | leave => trivial

theorem AsFound.of_isOpen {b : Alerts} {check : String × Verdict} (h : a.AsFound check)
    (hsame : b.isOpen check.1 = a.isOpen check.1) : b.AsFound check := by
  unfold AsFound at h ⊢
  rw [hsame]
  exact h

/-- Another key's incident is decided. -/
theorem AsFound.decide {check : String × Verdict} (h : a.AsFound check) (hne : check.1 ≠ key) :
    (a.decide key verdict stamp).AsFound check :=
  h.of_isOpen (isOpen_decide_ne hne)

end Alerts

/-- How far an evaluation is. -/
structure Evaluated (a : Alerts) (snapshot : Snapshot) (done skipped left : List (String × Verdict)) :
    Prop where
  all : (done.map (·.1) ++ left.map (·.1)).Nodup
  only : ∀ c, c ∈ done ∨ c ∈ left → c ∈ snapshot.checks
  each : ∀ c ∈ snapshot.checks, c ∈ done ∨ c ∈ skipped ∨ c ∈ left
  asFound : ∀ c ∈ done, a.AsFound c

namespace Evaluated

variable {a : Alerts} {snapshot : Snapshot} {check : String × Verdict}
  {done skipped left : List (String × Verdict)}

theorem start : Evaluated a snapshot [] [] snapshot.checks where
  all := snapshot.nodup_checks
  only _ h := h.resolve_left (by simp)
  each _ h := .inr (.inr h)
  asFound _ h := nomatch h

theorem decide (h : Evaluated a snapshot done skipped (check :: left)) {stamp : Int} :
    Evaluated (a.decide check.1 check.2 stamp) snapshot (check :: done) skipped left where
  all := by
    have := h.all
    rw [List.map_cons] at this ⊢
    exact (List.perm_middle.nodup_iff.mp this)
  only c hc := by
    obtain hdone | hleft := hc
    · obtain rfl | hold := List.mem_cons.mp hdone
      · exact h.only c (.inr List.mem_cons_self)
      · exact h.only c (.inl hold)
    · exact h.only c (.inr (List.mem_cons_of_mem _ hleft))
  each c hc := by
    obtain hd | hs | hl := h.each c hc
    · exact .inl (List.mem_cons_of_mem _ hd)
    · exact .inr (.inl hs)
    · obtain rfl | hl := List.mem_cons.mp hl
      · exact .inl List.mem_cons_self
      · exact .inr (.inr hl)
  asFound c hc := by
    obtain rfl | hold := List.mem_cons.mp hc
    · exact Alerts.asFound_decide
    · refine (h.asFound c hold).decide fun hsame => ?_
      have hdisjoint := (List.nodup_append.mp h.all).2.2
      exact hdisjoint c.1 (List.mem_map_of_mem hold) check.1 (by simp) hsame

/-- Checks are given up. -/
theorem skip (h : Evaluated a snapshot done skipped left) {skipped' left' : List (String × Verdict)}
    (hsub : left'.Sublist left)
    (hkept : ∀ c, c ∈ skipped ∨ c ∈ left → c ∈ skipped' ∨ c ∈ left') :
    Evaluated a snapshot done skipped' left' where
  all := h.all.sublist ((List.Sublist.refl _).append (hsub.map _))
  only c hc := h.only c (hc.imp_right (hsub.subset ·))
  each c hc := (h.each c hc).imp_right (hkept c)
  asFound := h.asFound

theorem mono (h : Evaluated a snapshot done skipped left) {b : Alerts}
    (hsame : ∀ c ∈ snapshot.checks, b.isOpen c.1 = a.isOpen c.1) :
    Evaluated b snapshot done skipped left where
  all := h.all
  only := h.only
  each := h.each
  asFound c hc := (h.asFound c hc).of_isOpen (hsame c (h.only c (.inl hc)))

end Evaluated

def State.Evaluated (s : State) : Prop :=
  ∀ (snapshot : Snapshot) (done skipped left : List (String × Verdict)),
    s.loop = .evaluating snapshot done skipped left →
      Service.Evaluated s.alerts snapshot done skipped left

namespace State.Evaluated

variable {s t : State} {e : Event} {key : String} {verdict : Verdict} {stamp : Int}

/-- A loop that does not evaluate. -/
theorem of_ne (h : ∀ (snapshot : Snapshot) (done skipped left : List (String × Verdict)),
    s.loop ≠ .evaluating snapshot done skipped left) : s.Evaluated :=
  fun _ _ _ _ hloop => absurd hloop (h _ _ _ _)

theorem after {alert : Nat × Alert} {left : List (Nat × Alert)} {outcome : Guardian.Outcome} :
    (s.after alert left outcome).Evaluated :=
  of_ne fun _ _ _ _ => by cases outcome <;> simp [State.after]

/-- An incident that no check is about. -/
theorem decide (hs : s.Evaluated) (hkey : ':' ∈ key.toList) :
    State.Evaluated { s with alerts := s.alerts.decide key verdict stamp } :=
  fun snapshot done skipped left hloop =>
    (hs snapshot done skipped left hloop).mono fun _ hc =>
      Alerts.isOpen_decide_ne fun hsame =>
        Snapshot.colon_not_mem_checks hc (hsame ▸ hkey)

theorem step (hs : s.Evaluated) (h : Service.step s e = some t) : t.Evaluated := by
  cases moved_step h with
  | same hlike hl =>
    intro snapshot done skipped left hloop
    rw [hlike.alerts]
    exact hs _ _ _ _ (hl ▸ hloop)
  | wakes hlike hl =>
    intro snapshot done skipped left hloop
    rw [hl] at hloop
    cases hloop
    exact .start
  | decides hloop =>
    intro snapshot done skipped left hloop'
    cases hloop'
    exact (hs _ _ _ _ hloop).decide
  | skips hloop hsub hkept =>
    intro snapshot done skipped left hloop'
    cases hloop'
    exact (hs _ _ _ _ hloop).skip hsub hkept
  | sleeps | claims | absent | marks | restarts => exact of_ne fun _ _ _ _ hloop => nomatch hloop
  | begins | goes => exact .after
  | reports hkey => exact hs.decide hkey
  | deletes => exact hs

end State.Evaluated

/-- The reading of an evaluation whose last check has been decided, and the checks it skipped. -/
def Loop.over? : Loop → Option (Snapshot × List (String × Verdict))
  | .evaluating snapshot _ skipped [] => some (snapshot, skipped)
  | _ => none

/-- **A whole evaluation.**  In every run, when the last check of a reading has been decided, each
incident is open if its check found the problem and closed if it found it gone, up to the checks
whose transaction failed or that were not reached. -/
theorem evaluated_as_found {old : Old} {s : State}
    (h : Run.Reaches (system old) Run.anyStep s) (snapshot : Snapshot)
    (skipped : List (String × Verdict)) (hover : s.loop.over? = some (snapshot, skipped)) :
    ∀ check ∈ snapshot.checks, check ∈ skipped ∨ s.alerts.AsFound check := by
  have hstart : (system old).start.Evaluated := .of_ne fun _ _ _ _ hloop => nomatch hloop
  have hs : s.Evaluated := h.invariant hstart fun _ _ _ hs _ hst => hs.step hst
  intro check hcheck
  cases hloop : s.loop with
  | evaluating snapshot' done skipped' left =>
    cases left with
    | nil =>
      rw [hloop] at hover
      cases hover
      have hold := hs snapshot done skipped [] hloop
      obtain hdone | hskipped | hleft := hold.each check hcheck
      · exact .inr (hold.asFound check hdone)
      · exact .inl hskipped
      · cases hleft
    | cons next left =>
      rw [hloop] at hover
      cases hover
  | _ =>
    rw [hloop] at hover
    cases hover

theorem evaluated_as_found_gone : ∃ s : State, s.alerts.isOpen "max-offline" = true := by
  obtain ⟨s, hs, hfinal⟩ := Run.Reaches.exists_of_play (system fresh) (fun _ _ => true)
    (evaluation gone 5)
    (fun s => s.loop.over?.any fun x => x.2 = [] && (x.1.maxOffline matches .raise _))
    (by decide +kernel)
  obtain ⟨x, hover, hread⟩ := (Option.any_eq_true _ _).mp hfinal
  obtain ⟨hskipped, hraised⟩ := (Bool.and_eq_true _ _).mp hread
  have hfirst : ("max-offline", x.1.maxOffline) ∈ x.1.checks := List.mem_cons_self
  obtain hno | hfound := evaluated_as_found (hs.mono fun _ _ _ => trivial) x.1 x.2 hover _ hfirst
  · rw [of_decide_eq_true hskipped] at hno
    cases hno
  · refine ⟨s, ?_⟩
    cases hverdict : x.1.maxOffline with
    | raise text => exact (hverdict ▸ hfound :)
    | _ => simp [hverdict] at hraised

end Telemax.Service
