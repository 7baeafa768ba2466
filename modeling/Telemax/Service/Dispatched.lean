import Telemax.Service.Steps

/-!
# Telemax.Service.Dispatched

The queue of alerts.  In every run an alert in the dispatcher's hands is pending and as it stands
in the table, it is given up when its eighth failure is written down, and once it is sent or given
up it is never touched again.
-/

namespace Telemax.Service

/-- The alerts the dispatcher has claimed and not yet marked. -/
def Loop.held : Loop → List (Nat × Alert)
  | .draining left => left
  | .publishing alert left _ | .marking alert left _ => alert :: left
  | _ => []

/-- The row says what was written down of its deliveries: it is given up at the eighth failure and
not before, and sent when one went through. -/
structure Alert.Counted (marks : List (Nat × Bool)) (id : Nat) (r : Alert) : Prop where
  attempts : r.attempts = marks.count (id, false)
  most : marks.count (id, false) ≤ maxAttempts
  failed : r.state = .failed ↔ marks.count (id, false) = maxAttempts
  sent : r.state = .sent ↔ (id, true) ∈ marks

structure Queued (a : Alerts) (marks : List (Nat × Bool)) (held : List (Nat × Alert)) : Prop where
  counts : ∀ (id : Nat) (r : Alert), a.outbox.get? id = some r → r.Counted marks id
  known : ∀ x ∈ marks, x.1 < a.outbox.next
  pending : ∀ x ∈ held, a.outbox.get? x.1 = some x.2 ∧ x.2.state = .pending
  inOrder : held.Pairwise fun x y => x.1 < y.1

namespace Queued

variable {a : Alerts} {marks : List (Nat × Bool)} {held : List (Nat × Alert)}

theorem start : Queued Alerts.empty [] [] where
  counts _ _ h := nomatch h
  known _ h := nomatch h
  pending _ h := nomatch h
  inOrder := .nil

/-- Fewer alerts are held. -/
theorem release (h : Queued a marks held) {held' : List (Nat × Alert)}
    (hsub : held'.Sublist held) : Queued a marks held' :=
  ⟨h.counts, h.known, fun x hx => h.pending x (hsub.subset hx), h.inOrder.sublist hsub⟩

end Queued

/-! ## the statements -/

section

variable {a : Alerts} {key : String} {verdict : Verdict} {stamp : Int} {id : Nat} {r : Alert}

/-- A decision leaves the alerts that are there as they are. -/
theorem Alerts.get?_decide (h : a.outbox.get? id = some r) :
    (a.decide key verdict stamp).outbox.get? id = some r := by
  have hne : id ≠ a.outbox.next := Nat.ne_of_lt (Table.lt_next h)
  have hkept (q : Alert) : (a.outbox.insert q).get? id = some r := by
    rw [Table.get?_insert, if_neg hne]
    exact h
  cases verdict with
  | raise text =>
    simp only [decide, openIncident]
    split
    · split
      · exact h
      · exact hkept _
    · exact hkept _
  | clear text =>
    simp only [decide, resolveIncident]
    split
    · exact hkept _
    · exact h
  | leave => exact h

/-- A decision adds at most one alert, of which nothing has been written down. -/
theorem Alerts.of_get?_decide (h : (a.decide key verdict stamp).outbox.get? id = some r) :
    a.outbox.get? id = some r ∨ id = a.outbox.next ∧ r.state = .pending ∧ r.attempts = 0 := by
  have hadded (q : Alert) (hq : q.state = .pending ∧ q.attempts = 0)
      (hr : (a.outbox.insert q).get? id = some r) :
      a.outbox.get? id = some r ∨ id = a.outbox.next ∧ r.state = .pending ∧ r.attempts = 0 := by
    rw [Table.get?_insert] at hr
    split at hr
    · next hid => exact .inr ⟨hid, Option.some.inj hr ▸ hq⟩
    · exact .inl hr
  cases verdict with
  | raise text =>
    simp only [decide, openIncident] at h
    split at h
    · split at h
      · exact .inl h
      · exact hadded _ ⟨rfl, rfl⟩ h
    · exact hadded _ ⟨rfl, rfl⟩ h
  | clear text =>
    simp only [decide, resolveIncident] at h
    split at h
    · exact hadded _ ⟨rfl, rfl⟩ h
    · exact .inl h
  | leave => exact .inl h

theorem Alerts.next_decide : a.outbox.next ≤ (a.decide key verdict stamp).outbox.next := by
  have hadded (q : Alert) : a.outbox.next ≤ (a.outbox.insert q).next := Nat.le_succ _
  cases verdict with
  | raise text =>
    simp only [decide, openIncident]
    split
    · split
      · exact Nat.le_refl _
      · exact hadded _
    · exact hadded _
  | clear text =>
    simp only [decide, resolveIncident]
    split
    · exact hadded _
    · exact Nat.le_refl _
  | leave => exact Nat.le_refl _

/-- What marking makes of the row. -/
def Alert.marked (r : Alert) (claimed : Alert) (delivered : Bool) (stamp : Int) : Alert :=
  let attempts := claimed.attempts + 1
  if delivered then { r with state := .sent }
  else if maxAttempts ≤ attempts then { r with state := .failed, attempts := r.attempts + 1 }
  else { r with attempts := r.attempts + 1, nextAttemptAt := stamp + backoffMs * attempts }

theorem Alerts.get?_mark {alert : Nat × Alert} {delivered : Bool} :
    (a.mark alert delivered stamp).outbox.get? id =
      if id = alert.1 then
        (a.outbox.get? alert.1).map fun r => r.marked alert.2 delivered stamp
      else a.outbox.get? id := by
  simp only [mark, markSent, markRetry, markFailed, Alert.marked]
  split
  · exact Table.get?_modify ..
  · split <;> exact Table.get?_modify ..

theorem Alerts.next_mark {alert : Nat × Alert} {delivered : Bool} :
    (a.mark alert delivered stamp).outbox.next = a.outbox.next := by
  simp only [mark, markSent, markRetry, markFailed]
  split
  · rfl
  · split <;> rfl

variable {marks : List (Nat × Bool)}

/-- What is written down of another alert changes nothing. -/
theorem Alert.Counted.other (h : r.Counted marks id) {x : Nat × Bool} (hne : id ≠ x.1) :
    r.Counted (x :: marks) id := by
  have hcount : (x :: marks).count (id, false) = marks.count (id, false) :=
    List.count_cons_of_ne fun heq => hne (congrArg Prod.fst heq).symm
  have hmem : (id, true) ∈ x :: marks ↔ (id, true) ∈ marks := by
    rw [List.mem_cons, or_iff_right fun heq => hne (congrArg Prod.fst heq)]
  exact ⟨hcount ▸ h.attempts, hcount ▸ h.most, hcount ▸ h.failed, h.sent.trans hmem.symm⟩

/-- A pending alert is marked by the row it was claimed with. -/
theorem Alert.Counted.marked (h : r.Counted marks id) (hpending : r.state = .pending)
    {delivered : Bool} :
    (r.marked r delivered stamp).Counted ((id, delivered) :: marks) id := by
  obtain ⟨hattempts, hmost, hfailed, hsent⟩ := h
  have hbelow : marks.count (id, false) ≠ maxAttempts := fun heq => by
    rw [hfailed.mpr heq] at hpending
    cases hpending
  have hunsent : (id, true) ∉ marks := fun hmem => by
    rw [hsent.mpr hmem] at hpending
    cases hpending
  cases delivered with
  | true =>
    have hcount : ((id, true) :: marks).count (id, false) = marks.count (id, false) :=
      List.count_cons_of_ne (by simp)
    simp only [Alert.marked, if_true]
    exact ⟨hcount ▸ hattempts, hcount ▸ hmost,
      ⟨nofun, fun heq => absurd (hcount ▸ heq) hbelow⟩,
      ⟨fun _ => List.mem_cons_self, fun _ => rfl⟩⟩
  | false =>
    have hcount : ((id, false) :: marks).count (id, false) = marks.count (id, false) + 1 :=
      List.count_cons_self
    have hother : (id, true) ∉ (id, false) :: marks := by simpa using hunsent
    simp only [Alert.marked, Bool.false_eq_true, if_false]
    split
    · next hlate =>
      have hlast : marks.count (id, false) + 1 = maxAttempts := by omega
      exact ⟨by rw [hcount, ← hattempts], by omega, ⟨fun _ => hcount.trans hlast, fun _ => rfl⟩,
        ⟨nofun, fun hmem => absurd hmem hother⟩⟩
    · next hearly =>
      refine ⟨by rw [hcount, ← hattempts], by omega, ⟨fun hstate => ?_, fun heq => ?_⟩,
        ⟨fun hstate => ?_, fun hmem => absurd hmem hother⟩⟩
      · exact absurd (hpending.symm.trans hstate) nofun
      · omega
      · exact absurd (hpending.symm.trans hstate) nofun

end

namespace Queued

variable {a : Alerts} {marks : List (Nat × Bool)} {held : List (Nat × Alert)} {key : String}
  {verdict : Verdict} {stamp : Int}

/-- A new alert has failed no time. -/
theorem counted_next (h : Queued a marks held) {r : Alert} (hpending : r.state = .pending)
    (hzero : r.attempts = 0) : r.Counted marks a.outbox.next := by
  have hnobody (delivered : Bool) : (a.outbox.next, delivered) ∉ marks := fun hmem =>
    absurd (h.known _ hmem) (Nat.lt_irrefl _)
  have hcount : marks.count (a.outbox.next, false) = 0 := List.count_eq_zero.mpr (hnobody false)
  refine ⟨hzero.trans hcount.symm, by omega, ⟨fun hstate => ?_, fun heq => ?_⟩,
    ⟨fun hstate => ?_, fun hmem => absurd hmem (hnobody true)⟩⟩
  · exact absurd (hpending.symm.trans hstate) nofun
  · simp [hcount, maxAttempts] at heq
  · exact absurd (hpending.symm.trans hstate) nofun

theorem decide (h : Queued a marks held) : Queued (a.decide key verdict stamp) marks held where
  counts id r hr := by
    obtain hold | ⟨rfl, hpending, hzero⟩ := Alerts.of_get?_decide hr
    · exact h.counts id r hold
    · exact h.counted_next hpending hzero
  known x hx := Nat.lt_of_lt_of_le (h.known x hx) Alerts.next_decide
  pending x hx := ⟨Alerts.get?_decide (h.pending x hx).1, (h.pending x hx).2⟩
  inOrder := h.inOrder

/-- The first alert is marked. -/
theorem mark {alert : Nat × Alert} (h : Queued a marks (alert :: held)) {delivered : Bool} :
    Queued (a.mark alert delivered stamp) ((alert.1, delivered) :: marks) held where
  counts id r hr := by
    rw [Alerts.get?_mark] at hr
    obtain ⟨hrow, hpending⟩ := h.pending alert List.mem_cons_self
    split at hr
    · next hid =>
      rw [hrow] at hr
      obtain rfl := Option.some.inj hr
      subst hid
      exact (h.counts _ _ hrow).marked hpending
    · next hid => exact (h.counts id r hr).other hid
  known x hx := by
    rw [Alerts.next_mark]
    rcases List.mem_cons.mp hx with rfl | hold
    · exact Table.lt_next (h.pending alert List.mem_cons_self).1
    · exact h.known x hold
  pending x hx := by
    have hlt : alert.1 < x.1 := List.rel_of_pairwise_cons h.inOrder hx
    rw [Alerts.get?_mark, if_neg (Nat.ne_of_gt hlt)]
    exact h.pending x (List.mem_cons_of_mem _ hx)
  inOrder := h.inOrder.of_cons

theorem claim (h : Queued a marks held) : Queued a marks (a.claimDue stamp) where
  counts := h.counts
  known := h.known
  pending x hx := by
    obtain ⟨hrow, hdue⟩ := Table.mem_select.mp (List.mem_of_mem_take hx)
    exact ⟨hrow, (of_decide_eq_true hdue).1⟩
  inOrder := (Table.select_sorted ..).sublist (List.take_sublist ..)

end Queued

def State.Queued (s : State) : Prop := Service.Queued s.alerts s.marks s.loop.held

namespace State.Queued

variable {s t : State} {e : Event}

theorem held_after {alert : Nat × Alert} {left : List (Nat × Alert)} {outcome : Guardian.Outcome} :
    (s.after alert left outcome).loop.held = alert :: left := by
  cases outcome <;> rfl

theorem step (hs : s.Queued) (h : Service.step s e = some t) : t.Queued := by
  unfold State.Queued at hs ⊢
  cases moved_step h with
  | same hlike hl =>
    rw [hlike.alerts, hlike.marks, hl]
    exact hs
  | wakes hlike hl =>
    rw [hlike.alerts, hlike.marks, hl]
    exact hs.release (List.nil_sublist _)
  | decides => exact hs.decide.release (List.nil_sublist _)
  | skips | sleeps | restarts => exact hs.release (List.nil_sublist _)
  | claims => exact hs.claim
  | begins hloop =>
    rw [State.alerts_after, State.marks_after, held_after]
    rw [hloop] at hs
    exact hs
  | absent hloop =>
    rw [hloop] at hs
    exact hs
  | goes hloop ha hf hm =>
    rw [State.alerts_after, State.marks_after, ha, hm, held_after]
    rw [hloop] at hs
    exact hs
  | marks hloop =>
    rw [hloop] at hs
    exact hs.mark
  | reports => exact hs.decide
  | deletes => exact hs

/-- An alert that is not pending is not touched. -/
theorem closed_step (hs : s.Queued) (h : Service.step s e = some t) {id : Nat} {r : Alert}
    (hr : s.alerts.outbox.get? id = some r) (hclosed : r.state ≠ .pending) :
    t.alerts.outbox.get? id = some r := by
  cases moved_step h with
  | same hlike | wakes hlike => exact hlike.alerts ▸ hr
  | decides | reports => exact Alerts.get?_decide hr
  | skips | sleeps | claims | absent | deletes | restarts => exact hr
  | begins =>
    rw [State.alerts_after]
    exact hr
  | goes hloop ha =>
    rw [State.alerts_after, ha]
    exact hr
  | @marks alert left delivered stamp hloop =>
    unfold State.Queued at hs
    rw [hloop] at hs
    obtain ⟨hrow, hpending⟩ := hs.pending alert List.mem_cons_self
    have hne : id ≠ alert.1 := by
      rintro rfl
      rw [hr] at hrow
      exact hclosed (Option.some.inj hrow ▸ hpending)
    show (s.alerts.mark alert delivered stamp).outbox.get? id = some r
    rw [Alerts.get?_mark, if_neg hne]
    exact hr

end State.Queued

theorem State.queued {old : Old} {s : State} (h : Run.Reaches (system old) Run.anyStep s) :
    s.Queued := by
  have hstart : (system old).start.Queued := Queued.start
  exact h.invariant hstart fun _ _ _ hs _ hst => hs.step hst

/-- **Handed out until closed.**  In every run an alert handed to the notification centre is
pending, is what the table says, and less than eight failures of it have been written down; an
alert is given up when the eighth is written down and not before, and sent when a delivery that went
through is; and one that is sent or given up stays as it is, in every run from there on. -/
theorem handed_until_closed {old : Old} {s : State}
    (h : Run.Reaches (system old) Run.anyStep s) :
    (∀ (alert : Nat × Alert) (left : List (Nat × Alert)) (stage : Stage),
      s.loop = .publishing alert left stage →
        s.alerts.outbox.get? alert.1 = some alert.2 ∧ alert.2.state = .pending ∧
          s.marks.count (alert.1, false) < maxAttempts) ∧
    (∀ (id : Nat) (r : Alert), s.alerts.outbox.get? id = some r → r.Counted s.marks id) ∧
    ∀ (t : State) (id : Nat) (r : Alert), Run.Leads (system old) Run.anyStep s t →
      s.alerts.outbox.get? id = some r → r.state ≠ .pending → t.alerts.outbox.get? id = some r := by
  have hs := State.queued h
  refine ⟨fun alert left stage hloop => ?_, hs.counts, fun t id r hleads hr hclosed => ?_⟩
  · have hheld : alert ∈ s.loop.held := by
      rw [hloop]
      exact List.mem_cons_self
    obtain ⟨hrow, hpending⟩ := hs.pending alert hheld
    have hcounted := hs.counts _ _ hrow
    refine ⟨hrow, hpending, Nat.lt_of_le_of_ne hcounted.most fun heq => ?_⟩
    rw [hcounted.failed.mpr heq] at hpending
    cases hpending
  · exact hleads.stable (fun t => t.alerts.outbox.get? id = some r) (fun _ _ hok => hok)
      (fun _ _ _ hreached hrow _ hst => (State.queued hreached).closed_step hst hrow hclosed) h hr

theorem handed_until_closed_told : ∃ s t : State,
    (s.alerts.outbox.get? 1).map (·.state) = some .sent ∧
      t.alerts.outbox.get? 1 = s.alerts.outbox.get? 1 := by
  obtain ⟨s, t, hs, hst, hfinal⟩ := Run.Leads.exists_of_play (system fresh) (fun _ _ => true)
    (fun _ _ => true) outage recovery
    (fun s _ => (s.alerts.outbox.get? 1).map (·.state) = some .sent) (by decide +kernel)
  have hsent := of_decide_eq_true hfinal
  obtain ⟨r, hr, hstate⟩ := Option.map_eq_some_iff.mp hsent
  refine ⟨s, t, hsent, ?_⟩
  rw [hr]
  exact (handed_until_closed (hs.mono fun _ _ _ => trivial)).2.2 t 1 r
    (hst.mono fun _ _ _ => trivial) hr (by rw [hstate]; decide)

end Telemax.Service
