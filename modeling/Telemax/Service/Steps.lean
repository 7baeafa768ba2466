import Telemax.Service.System

/-!
# Telemax.Service.Steps

What a step can do, said once: `moved_step`.
-/

namespace Telemax.Service

/-- The keys of the incidents that no check is about have two parts. -/
theorem colon_mem_bridgeNotStartedKey (name : String) :
    ':' ∈ (bridgeNotStartedKey name).toList := by
  have hmark : ':' ∈ "bridge-not-started:".toList := by decide
  rw [show bridgeNotStartedKey name = "bridge-not-started:" ++ toString name from rfl,
    String.toList_append, List.mem_append]
  exact .inl hmark

theorem colon_mem_provisioningStuckKey (chat : Int) :
    ':' ∈ (provisioningStuckKey chat).toList := by
  have hmark : ':' ∈ "provisioning-stuck:".toList := by decide
  rw [show provisioningStuckKey chat = "provisioning-stuck:" ++ toString chat from rfl,
    String.toList_append, List.mem_append]
  exact .inl hmark

/-- One await of `publish`, and the facts it has read after it. -/
inductive Went (g : Guardian) (stage : Stage) (read : Option Facts) :
    Event → Option Facts → Guardian.Outcome → Prop
  | asked {maxReady : Bool} {readings : Option (Readings × Bool)} {facts : Facts}
      {outcome : Guardian.Outcome} (h : g.asked (some facts) stage = some outcome) :
      Went g stage read (.asked maxReady readings) (some facts) outcome
  | unread {outcome : Guardian.Outcome} (h : g.asked none stage = some outcome) :
      Went g stage read .unread read outcome
  | edited {answer : Answer} {written : Bool} {outcome : Guardian.Outcome}
      (h : g.edited answer written stage = some outcome) :
      Went g stage read (.edited answer written) read outcome
  | sent {answer : Answer} {written : Bool} {outcome : Guardian.Outcome}
      (h : g.sent answer written stage = some outcome) :
      Went g stage read (.sent answer written) read outcome

/-- What neither the canary nor the loop is about stays. -/
structure State.Like (s t : State) : Prop where
  alerts : t.alerts = s.alerts
  guardian : t.guardian = s.guardian
  read : t.read = s.read
  found : t.found = s.found
  marks : t.marks = s.marks

theorem State.Like.refl (s : State) : s.Like s := ⟨rfl, rfl, rfl, rfl, rfl⟩

/-- What a step comes to, up to the canary's count. -/
inductive Moved (s : State) (e : Event) : State → Prop
  | same {t : State} (h : s.Like t) (hl : t.loop = s.loop) : Moved s e t
  | wakes {t : State} {snapshot : Snapshot} (h : s.Like t)
      (hl : t.loop = .evaluating snapshot [] [] snapshot.checks) : Moved s e t
  | decides {snapshot : Snapshot} {done skipped left : List (String × Verdict)}
      {check : String × Verdict} {stamp : Int}
      (hloop : s.loop = .evaluating snapshot done skipped (check :: left)) :
      Moved s e { s with
        alerts := s.alerts.decide check.1 check.2 stamp
        loop := .evaluating snapshot (check :: done) skipped left }
  | skips {snapshot : Snapshot} {done skipped left skipped' left' : List (String × Verdict)}
      (hloop : s.loop = .evaluating snapshot done skipped left) (hsub : left'.Sublist left)
      (hkept : ∀ c, c ∈ skipped ∨ c ∈ left → c ∈ skipped' ∨ c ∈ left') :
      Moved s e { s with loop := .evaluating snapshot done skipped' left' }
  | sleeps : Moved s e { s with loop := .sleeping }
  | claims {stamp : Int} : Moved s e { s with loop := .draining (s.alerts.claimDue stamp) }
  | begins {alert : Nat × Alert} {left : List (Nat × Alert)}
      (hloop : s.loop = .draining (alert :: left)) :
      Moved s e (State.after { s with read := none } alert left s.guardian.begin)
  | absent {alert : Nat × Alert} {left : List (Nat × Alert)}
      (hloop : s.loop = .draining (alert :: left)) :
      Moved s e { s with loop := .marking alert left false }
  | goes {s' : State} {alert : Nat × Alert} {left : List (Nat × Alert)} {stage : Stage}
      {outcome : Guardian.Outcome} (hloop : s.loop = .publishing alert left stage)
      (ha : s'.alerts = s.alerts) (hf : s'.found = s.found) (hm : s'.marks = s.marks)
      (h : Went s.guardian stage s.read e s'.read outcome) :
      Moved s e (s'.after alert left outcome)
  | marks {alert : Nat × Alert} {left : List (Nat × Alert)} {delivered : Bool} {stamp : Int}
      (hloop : s.loop = .marking alert left delivered) :
      Moved s e { s with
        alerts := s.alerts.mark alert delivered stamp
        loop := .draining left
        marks := (alert.1, delivered) :: s.marks }
  | reports {key : String} {verdict : Verdict} {stamp : Int} (hkey : ':' ∈ key.toList) :
      Moved s e { s with alerts := s.alerts.decide key verdict stamp }
  | deletes {message : Nat} :
      Moved s e { s with
        guardian := { s.guardian with chat := s.guardian.chat.delete fun i _ => i == message } }
  | restarts :
      Moved s e { s with
        canarySuccesses := 0
        loop := .sleeping
        guardian := { s.guardian with retired := false } }

theorem moved_exec {s t : State} {stamp : Int} {ok : Bool}
    (h : step s (.exec stamp ok) = some t) : Moved s (.exec stamp ok) t := by
  simp only [step] at h
  split at h
  · next hloop =>
    split at h
    · exact Option.some.inj h ▸ .decides hloop
    · split at h
      · exact Option.some.inj h ▸ .skips hloop (List.sublist_cons_self ..) fun _ hc => by grind
      · exact Option.some.inj h ▸ .skips hloop (List.nil_sublist _) fun _ hc => by grind
  · next hloop =>
    split at h
    · exact Option.some.inj h ▸ .marks hloop
    · exact Option.some.inj h ▸ .sleeps
  · cases h

theorem moved_step {s t : State} {e : Event} (h : step s e = some t) : Moved s e t := by
  cases e with
  | wake readings canary =>
    simp only [step] at h
    split at h
    · exact Option.some.inj h ▸ .wakes ⟨rfl, rfl, rfl, rfl, rfl⟩ rfl
    · exact Option.some.inj h ▸ .same (.refl s) rfl
    · cases h
  | look canary => exact Option.some.inj h ▸ .same ⟨rfl, rfl, rfl, rfl, rfl⟩ rfl
  | exec stamp ok => exact moved_exec h
  | drain guardian stamp ok =>
    simp only [step] at h
    split at h
    · obtain rfl := Option.some.inj h
      split
      · exact .claims
      · exact .sleeps
    · cases h
  | publish guardian =>
    simp only [step] at h
    split at h
    · next hloop =>
      split at h
      · exact Option.some.inj h ▸ .begins hloop
      · exact Option.some.inj h ▸ .absent hloop
    · exact Option.some.inj h ▸ .sleeps
    · cases h
  | asked maxReady readings =>
    simp only [step] at h
    split at h
    · next hloop =>
      obtain ⟨o, ho, rfl⟩ := Option.map_eq_some_iff.mp h
      exact .goes hloop State.alerts_attention State.found_attention State.marks_attention
        (.asked ho)
    · cases h
  | unread =>
    simp only [step] at h
    split at h
    · next hloop =>
      obtain ⟨o, ho, rfl⟩ := Option.map_eq_some_iff.mp h
      exact .goes hloop rfl rfl rfl (.unread ho)
    · cases h
  | edited answer written =>
    simp only [step] at h
    split at h
    · next hloop =>
      obtain ⟨o, ho, rfl⟩ := Option.map_eq_some_iff.mp h
      exact .goes hloop rfl rfl rfl (.edited ho)
    · cases h
  | sent answer written =>
    simp only [step] at h
    split at h
    · next hloop =>
      obtain ⟨o, ho, rfl⟩ := Option.map_eq_some_iff.mp h
      exact .goes hloop rfl rfl rfl (.sent ho)
    · cases h
  | bridgeNotStarted name text stamp =>
    exact Option.some.inj h ▸ .reports (colon_mem_bridgeNotStartedKey name)
  | bridgeStarted name stamp =>
    exact Option.some.inj h ▸ .reports (colon_mem_bridgeNotStartedKey name)
  | provisioningStuck chat text stamp =>
    exact Option.some.inj h ▸ .reports (colon_mem_provisioningStuckKey chat)
  | deleted message => exact Option.some.inj h ▸ .deletes
  | restart => exact Option.some.inj h ▸ .restarts

end Telemax.Service
