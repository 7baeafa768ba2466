import Telemax.Lib.Tasks
import Telemax.Presence.StatusLine

/-!
# Telemax.Presence.OneLine

A refresh on its own leaves one line behind, which says what it has read; and as
long as refreshes come one after the other, every one of them is on its own.
-/

namespace Telemax.Presence.StatusLine

open Script

/-! ## what a refresh keeps to -/

/-- What the line is to say. -/
def Book.text (cfg : Config) (b : Book) : String :=
  render cfg b.now b.marks.deliveredAt b.marks.contactReadMark

/-- It has read the marks, and the line is still as it was. -/
def Book.looks (b : Book) : Prop := b.stage = .read ∨ b.stage = .cleared

/-- An edit, a deletion and a post come in this order, each of them once. -/
def Book.allows (cfg : Config) (b : Book) : Await → Prop
  | .noteDelivered _ | .storeContactRead .. => b.stage = .outside ∧ b.stale = none
  | .get => b.stage = .outside ∧ b.stale = none
  | .editStatus message text =>
      b.stage = .read ∧ b.stale = some false ∧ b.marks.statusMessageId = some message ∧
        text = b.text cfg
  | .deleteStatus message => b.stage = .read ∧ b.marks.statusMessageId = some message
  | .sendStatus text => b.stage = .cleared ∧ text = b.text cfg
  | .setStatusLine message text =>
      (b.stage = .edited message ∨ b.stage = .posted message) ∧ text = b.text cfg

def protocol (cfg : Config) : Protocol Op.Answer Book where
  allowed b
    | .await a => b.allows cfg a
    | .now | .stale => b.looks
    | .discardStale => ∃ message, b.stage = .posted message
  next := Book.next

/-- How a call ends. -/
def Ends (cfg : Config) (b : Book) : Except Empty Ended → Prop
  | .ok .disabled => cfg.enabled = false
  | .ok .nothingToReport => b.looks
  | .ok .unchanged =>
      b.stage = .read ∧ b.stale = some false ∧ b.marks.statusText = some (b.text cfg) ∧
        b.marks.statusMessageId.isSome = true
  | .ok .notSent => b.stage = .notSent
  | .ok .edited | .ok .posted => ∃ message, b.stage = .stored message

section

variable {cfg : Config} {b : Book}

theorem obeys_repost {messageId : Option Int} (hmarks : b.marks.statusMessageId = messageId)
    (hstage : if messageId.isNone then b.stage = .cleared else b.stage = .read) {text : String}
    (htext : text = b.text cfg) :
    Obeys (protocol cfg) b (repost messageId text) (Ends cfg) := by
  have hsend {b : Book} (hstage : b.stage = .cleared) (htext : text = b.text cfg) :
      Obeys (protocol cfg) b (repost none text) (Ends cfg) := by
    refine ⟨⟨hstage, htext⟩, fun r => ?_⟩
    cases r with
    | none => exact rfl
    | some new => exact ⟨⟨new, rfl⟩, fun _ => ⟨⟨.inr rfl, htext⟩, fun _ => ⟨new, rfl⟩⟩⟩
  cases messageId with
  | none => exact hsend hstage htext
  | some message => exact ⟨⟨hstage, hmarks⟩, fun _ => hsend rfl htext⟩

theorem obeys_refresh (houtside : b.stage = .outside) (hstale : b.stale = none) :
    Obeys (protocol cfg) b (refresh cfg) (Ends cfg) := by
  refine ⟨⟨houtside, hstale⟩, fun (marks : ReadMarks) => ?_⟩
  have hlooks (b : Book) (h : b.stage = if marks.statusMessageId.isNone then .cleared else .read) :
      b.looks := by
    cases hnone : marks.statusMessageId.isNone
    · exact .inl (h.trans (by rw [hnone]; rfl))
    · exact .inr (h.trans (by rw [hnone]; rfl))
  refine ⟨hlooks _ rfl, fun (now : Int) => ?_⟩
  change Obeys _ _ (if render cfg now marks.deliveredAt marks.contactReadMark = "" then _ else _) _
  split
  · exact hlooks _ rfl
  · refine ⟨hlooks _ rfl, fun (stale : Bool) => ?_⟩
    dsimp only [Script.bind]
    have hrepost (messageId : Option Int) (h : marks.statusMessageId = messageId) {b : Book}
        (hmarks : b.marks = marks)
        (hstage : b.stage = if marks.statusMessageId.isNone then .cleared else .read)
        (htext : b.now = now) :
        Obeys (protocol cfg) b
          (repost messageId (render cfg now marks.deliveredAt marks.contactReadMark)) (Ends cfg) := by
      refine obeys_repost (hmarks ▸ h) ?_ (by rw [Book.text, hmarks, htext])
      subst h
      cases hnone : marks.statusMessageId.isNone
      · exact hstage.trans (by rw [hnone]; rfl)
      · exact hstage.trans (by rw [hnone]; rfl)
    split
    · next message hmessage =>
        have hread : (if marks.statusMessageId.isNone then Stage.cleared else .read) = .read := by
          rw [hmessage]; rfl
        split
        · next hsame =>
            exact ⟨hread, rfl, hsame.symm, Option.isSome_iff_exists.mpr ⟨message, hmessage⟩⟩
        · refine ⟨⟨hread, rfl, hmessage, rfl⟩, fun accepted => ?_⟩
          cases accepted with
          | true => exact ⟨⟨.inl rfl, rfl⟩, fun _ => ⟨message, rfl⟩⟩
          | false => exact hrepost _ hmessage rfl rfl rfl
    · exact hrepost _ rfl rfl rfl rfl

theorem obeys_program (kind : Kind) : Obeys (protocol cfg) {} (kind.program cfg) (Ends cfg) := by
  cases kind with
  | delivered at_ =>
      simp only [Kind.program, noteDelivered]
      split
      · next h => exact (Bool.not_eq_true' _).mp h
      · exact ⟨⟨rfl, rfl⟩, fun _ => obeys_refresh rfl rfl⟩
  | read current mark ticked =>
      refine ⟨⟨rfl, rfl⟩, fun _ => ?_⟩
      change Obeys _ _ (noteRead cfg) _
      unfold noteRead
      split
      · next h => exact (Bool.not_eq_true' _).mp h
      · exact obeys_refresh rfl rfl

end

/-! ## between two awaits -/

/-- How a task stands at its next await, having been at `b`. -/
structure Settled (cfg : Config) (b : Book) (stale : Bool) (r : Prog Ended × Book × Bool) :
    Prop where
  obeys : Obeys (protocol cfg) r.2.1 r.1 (Ends cfg)
  awaits : ∀ op k, r.1 = .ask op k → ∃ a, op = .await a
  stage : r.2.1.stage = b.stage
  marks : r.2.1.marks = b.marks
  /-- The clock and the flag are only asked for while the line is looked at. -/
  now : b.looks ∨ r.2.1.now = b.now
  told : b.looks → r.2.1.stale = b.stale ∨ r.2.1.stale = some stale
  quiet : ¬b.looks → r.2.1.stale = b.stale
  flag : r.2.2 = stale ∨ ∃ message, b.stage = .posted message

theorem Book.looks.stage {b : Book} (h : b.looks) {stage : Stage} (hstage : b.stage = stage) :
    stage = .read ∨ stage = .cleared := by
  subst hstage
  exact h

theorem settled_settle {cfg : Config} (now : Int) {x : Prog Ended} {b : Book} (stale : Bool)
    (h : Obeys (protocol cfg) b x (Ends cfg)) : Settled cfg b stale (settle now x b stale) := by
  induction x generalizing b stale with
  | done e =>
      refine ⟨h, ?_, rfl, rfl, .inr rfl, fun _ => .inl rfl, fun _ => rfl, .inl rfl⟩
      rintro _ _ ⟨⟩
  | fail e => exact e.elim
  | ask op k ih =>
      obtain ⟨hallowed, hnext⟩ := h
      cases op with
      | await a =>
          refine ⟨⟨hallowed, hnext⟩, ?_, rfl, rfl, .inr rfl, fun _ => .inl rfl, fun _ => rfl,
            .inl rfl⟩
          rintro _ _ ⟨⟩
          exact ⟨a, rfl⟩
      | now =>
          have h := ih now stale (hnext now)
          exact ⟨h.obeys, h.awaits, h.stage, h.marks, .inl hallowed, h.told, h.quiet, h.flag⟩
      | stale =>
          have h := ih stale stale (hnext stale)
          exact ⟨h.obeys, h.awaits, h.stage, h.marks, .inl hallowed,
            fun hlooks => .inr ((h.told hlooks).elim id id), fun hnot => absurd hallowed hnot, h.flag⟩
      | discardStale =>
          have h := ih () false (hnext ())
          obtain ⟨message, hposted⟩ := hallowed
          exact ⟨h.obeys, h.awaits, h.stage, h.marks, h.now,
            fun hlooks => by simpa using hlooks.stage hposted, h.quiet,
            .inr ⟨message, hposted⟩⟩

/-- A refresh that is told of activity edits nothing, and leaves nothing as it is. -/
theorem choice_of_stale {cfg : Config} (hline : cfg.enabled = true) {b : Book}
    {r : Prog Ended × Book × Bool} (hlooks : b.looks) (hnone : b.stale = none)
    (h : Settled cfg b true r) : Choice.of r.1 = .blank ∨ Choice.of r.1 = .repost := by
  obtain ⟨x, b', flag⟩ := r
  have hstage : b'.stage = b.stage := h.stage
  have htold : b'.stale ≠ some false := by
    intro hfalse
    rcases h.told hlooks with hsame | htrue
    · cases (hfalse.symm.trans hsame).trans hnone
    · cases hfalse.symm.trans htrue
  have hlooks' {stage : Stage} (h : b'.stage = stage) : stage = .read ∨ stage = .cleared :=
    hlooks.stage (hstage.symm.trans h)
  have hobeys := h.obeys
  cases x with
  | fail e => exact e.elim
  | done e =>
      cases e with
      | nothingToReport => exact .inl rfl
      | disabled => exact absurd ((show cfg.enabled = false from hobeys).symm.trans hline) nofun
      | unchanged => exact absurd hobeys.2.1 htold
      | notSent => simpa using hlooks' hobeys
      | edited | posted =>
          obtain ⟨message, hstored⟩ : ∃ message, b'.stage = .stored message := hobeys
          simpa using hlooks' hstored
  | ask op k =>
      obtain ⟨a, rfl⟩ := h.awaits op k rfl
      have hallowed : b'.allows cfg a := hobeys.1
      cases a with
      | deleteStatus | sendStatus => exact .inr rfl
      | editStatus => exact absurd hallowed.2.1 htold
      | noteDelivered | storeContactRead | get => simpa using hlooks' hallowed.1
      | setStatusLine =>
          rcases hallowed.1 with hedited | hposted
          · simpa using hlooks' hedited
          · simpa using hlooks' hposted

/-! ## the state between two steps -/

structure Task.Kept (cfg : Config) (t : Task) : Prop where
  obeys : Obeys (protocol cfg) t.book t.prog (Ends cfg)
  awaits : ∀ op k, t.prog = .ask op k → ∃ a, op = .await a
  ready : ∀ x b, t.ready = some (x, b) →
    ∃ a k r, t.prog = .ask (.await a) k ∧ x = k r ∧ b = t.book.next (.await a) r

/-- A call under the line style does not end before it has read the marks. -/
theorem Ends.stage {cfg : Config} (hline : cfg.enabled = true) {b : Book} {e : Ended}
    (h : Ends cfg b (.ok e)) : b.stage ≠ .outside := by
  intro houtside
  cases e with
  | disabled => exact absurd ((show cfg.enabled = false from h).symm.trans hline) nofun
  | nothingToReport => simpa using Book.looks.stage h houtside
  | unchanged => cases houtside.symm.trans h.1
  | notSent => cases houtside.symm.trans h
  | edited | posted =>
      obtain ⟨message, hstored⟩ : ∃ message, b.stage = .stored message := h
      cases houtside.symm.trans hstored

namespace State

/-- Every line but this one was asked to be deleted. -/
def Alone (s : State) (line : Option Int) : Prop :=
  ∀ message ∈ s.posted, line = some message ∨ message ∈ s.asked

/-- The row has the line, and what it says. -/
structure Known (s : State) : Prop where
  alone : s.Alone s.row.get.statusMessageId
  text : ∀ message, s.row.get.statusMessageId = some message →
    s.row.get.statusText = some (s.texts message)

/-- The row still has the line that was read. -/
def SameLine (s : State) (b : Book) : Prop :=
  b.marks.statusMessageId = s.row.get.statusMessageId ∧ b.marks.statusText = s.row.get.statusText

/-- What the books of a refresh say is so. -/
def Holds (cfg : Config) (s : State) (b : Book) : Prop :=
  match b.stage with
  | .outside => True
  | .read => s.Known ∧ s.SameLine b
  | .cleared =>
      s.Known ∧ s.SameLine b ∧ ∀ message, b.marks.statusMessageId = some message →
        message ∈ s.asked
  | .edited message | .posted message => s.Alone (some message) ∧ s.texts message = b.text cfg
  | .notSent => s.Known
  | .stored message =>
      s.Known ∧ s.row.get.statusMessageId = some message ∧ s.texts message = b.text cfg

/-- What was read is the newest there is, or there is a call that will read what is. -/
def Agrees (s : State) (b : Book) : Prop :=
  (b.marks.deliveredAt = s.row.get.deliveredAt ∧
    b.marks.contactReadMark = s.row.get.contactReadMark) ∨
  ∃ (m : Nat) (u : Task), s.tasks[m]? = some u ∧ u.isOver = false ∧ u.inside = false

structure Kept (cfg : Config) (s : State) : Prop where
  tasks : ∀ (n : Nat) (t : Task), s.tasks[n]? = some t → t.Kept cfg
  single : ∀ (m n : Nat) (t u : Task), s.tasks[m]? = some t → s.tasks[n]? = some u →
    t.inside = true → u.inside = true → m = n
  holds : ∀ (n : Nat) (t : Task), s.tasks[n]? = some t → t.inside = true →
    s.Holds cfg t.now ∧ s.Agrees t.now
  known : (∀ (n : Nat) (t : Task), s.tasks[n]? = some t → t.inside = false) → s.Known
  since : ∀ (n : Nat) (t : Task), s.tasks[n]? = some t → t.sends = true → t.since = s.activity
  covered : s.covered ≤ s.activity
  stale : s.covered < s.activity → s.stale = true
  fresh : ∀ (n : Nat) (t : Task), s.tasks[n]? = some t → ∀ x b message,
    t.ready = some (x, b) → b.stage = .posted message → s.covered = s.activity
  decisions : ∀ d ∈ s.decisions, d.activity = true → d.choice = .blank ∨ d.choice = .repost
  deleting : ∀ (n : Nat) (t : Task), s.tasks[n]? = some t → ∀ message k,
    t.prog = .ask (.await (.deleteStatus message)) k → message ∈ s.asked
  deletions : ∀ message ∈ s.asked, message ∈ s.deleted ∨ message ∈ s.refused ∨
    ∃ (n : Nat) (t : Task) (k : _), s.tasks[n]? = some t ∧ t.ready = none ∧
      t.prog = .ask (.await (.deleteStatus message)) k
  shows : s.Idle → ∀ ended now, s.last = some (ended, now) →
    ended = .edited ∨ ended = .posted ∨ ended = .unchanged →
    ∃ message, s.row.get.statusMessageId = some message ∧
      s.texts message = render cfg now s.row.get.deliveredAt s.row.get.contactReadMark

variable {cfg : Config} {s s' : State} {b b' : Book}

theorem Alone.mono {line : Option Int} (h : s.Alone line) (hposted : s'.posted = s.posted)
    (hasked : ∀ message ∈ s.asked, message ∈ s'.asked) : s'.Alone line := by
  intro message hmem
  rw [hposted] at hmem
  exact (h message hmem).imp_right (hasked message)

/-- More has been asked to be deleted. -/
theorem Known.mono (h : s.Known) (hrow : s'.row = s.row) (hposted : s'.posted = s.posted)
    (htexts : s'.texts = s.texts) (hasked : ∀ message ∈ s.asked, message ∈ s'.asked) :
    s'.Known := by
  refine ⟨?_, ?_⟩
  · rw [hrow]
    exact h.alone.mono hposted hasked
  · rw [hrow, htexts]
    exact h.text

theorem Holds.mono (h : s.Holds cfg b) (hrow : s'.row = s.row) (hposted : s'.posted = s.posted)
    (htexts : s'.texts = s.texts) (hasked : ∀ message ∈ s.asked, message ∈ s'.asked)
    (hstage : b'.stage = b.stage) (hmarks : b'.marks = b.marks)
    (hnow : b.looks ∨ b'.now = b.now) : s'.Holds cfg b' := by
  have hknown (hk : s.Known) : s'.Known := hk.mono hrow hposted htexts hasked
  have hsame (hl : s.SameLine b) : s'.SameLine b' := by
    rw [SameLine, hrow, hmarks]
    exact hl
  unfold Holds at h ⊢
  rw [hstage]
  have htext (hstage : ∀ stage, b.stage = stage → stage ≠ .read ∧ stage ≠ .cleared) :
      b'.text cfg = b.text cfg := by
    rcases hnow with hlooks | hnow
    · rcases hlooks with hread | hcleared
      · exact absurd rfl (hstage _ hread).1
      · exact absurd rfl (hstage _ hcleared).2
    · rw [Book.text, Book.text, hmarks, hnow]
  cases hb : b.stage with
  | outside => trivial
  | read =>
      rw [hb] at h
      exact ⟨hknown h.1, hsame h.2⟩
  | cleared =>
      rw [hb] at h
      refine ⟨hknown h.1, hsame h.2.1, fun message hm => hasked _ (h.2.2 message ?_)⟩
      rwa [hmarks] at hm
  | edited message | posted message =>
      rw [hb] at h
      refine ⟨h.1.mono hposted hasked, ?_⟩
      rw [htexts, htext (by rintro _ rfl; rw [hb]; exact ⟨nofun, nofun⟩)]
      exact h.2
  | notSent =>
      rw [hb] at h
      exact hknown h
  | stored message =>
      rw [hb] at h
      refine ⟨hknown h.1, hrow ▸ h.2.1, ?_⟩
      rw [htexts, htext (by rintro _ rfl; rw [hb]; exact ⟨nofun, nofun⟩)]
      exact h.2.2

theorem Holds.known (h : s.Holds cfg b)
    (hstage : b.looks ∨ b.stage = .notSent ∨ ∃ message, b.stage = .stored message) : s.Known := by
  unfold Holds at h
  rcases hstage with (hb | hb) | hb | ⟨message, hb⟩
  · rw [hb] at h
    exact h.1
  · rw [hb] at h
    exact h.1
  · rw [hb] at h
    exact h
  · rw [hb] at h
    exact h.1

/-- What the line shows, where the last refresh has seen to it. -/
theorem Holds.shows (h : s.Holds cfg b) {ended : Ended} (hends : Ends cfg b (.ok ended))
    (hagrees : b.marks.deliveredAt = s.row.get.deliveredAt ∧
      b.marks.contactReadMark = s.row.get.contactReadMark)
    (hdone : ended = .edited ∨ ended = .posted ∨ ended = .unchanged) :
    ∃ message, s.row.get.statusMessageId = some message ∧
      s.texts message = render cfg b.now s.row.get.deliveredAt s.row.get.contactReadMark := by
  rw [← hagrees.1, ← hagrees.2]
  unfold Holds at h
  have hstored (hstage : ∃ message, b.stage = .stored message) :
      ∃ message, s.row.get.statusMessageId = some message ∧ s.texts message = b.text cfg := by
    obtain ⟨message, hstage⟩ := hstage
    rw [hstage] at h
    exact ⟨message, h.2.1, h.2.2⟩
  rcases hdone with rfl | rfl | rfl
  · exact hstored hends
  · exact hstored hends
  · obtain ⟨hread, -, htext, hsome⟩ := hends
    rw [hread] at h
    obtain ⟨hknown, hsame, hsameText⟩ := h
    obtain ⟨message, hmessage⟩ := Option.isSome_iff_exists.mp hsome
    have hline := hsame.symm.trans hmessage
    refine ⟨message, hline, Option.some.inj ?_⟩
    exact (hknown.text message hline).symm.trans (hsameText.symm.trans htext)

namespace Kept

variable {n : Nat} {t : Task}

/-- There is no other refresh beside one that has read the marks. -/
theorem alone_inside (h : s.Kept cfg) (ht : s.tasks[n]? = some t) (hin : t.inside = true) {m : Nat}
    {u : Task} (hm : m ≠ n) (hu : s.tasks[m]? = some u) : u.inside = false := by
  by_contra hne
  exact hm (h.single m n u t hu ht (Bool.not_eq_false _ ▸ hne) hin)

end Kept

/-! ## a task goes on -/

/-- A task that was at `b` comes to its next await. -/
structure Arrives (cfg : Config) (s : State) (n : Nat) (t : Task) (b : Book)
    (r : Prog Ended × Book × Bool) : Prop where
  there : s.tasks[n]? = some t
  live : t.isOver = false
  unready : t.ready ≠ none
  now : t.now = b
  settled : Settled cfg b s.stale r

namespace Arrives

variable {n : Nat} {t : Task} {r : Prog Ended × Book × Bool}

theorem inside (h : s.Arrives cfg n t b r) : t.inside = true ↔ b.stage ≠ .outside := by
  simp [Task.inside, h.live, h.now]

theorem other (_ : s.Arrives cfg n t b r) {m : Nat} (hm : m ≠ n) :
    (s.arrive n r).tasks[m]? = s.tasks[m]? :=
  List.getElem?_set_ne (Ne.symm hm)

theorem self (h : s.Arrives cfg n t b r) :
    (s.arrive n r).tasks[n]? = some { prog := r.1, book := r.2.1, since := s.activity } :=
  List.getElem?_set_self (List.getElem?_eq_some_iff.mp h.there).1

theorem cases (_ : s.Arrives cfg n t b r) {m : Nat} {u : Task}
    (hu : (s.arrive n r).tasks[m]? = some u) :
    m = n ∧ u = { prog := r.1, book := r.2.1, since := s.activity } ∨
      m ≠ n ∧ s.tasks[m]? = some u :=
  Tasks.set_cases hu

theorem was_inside (h : s.Arrives cfg n t b r)
    (hin : Task.inside { prog := r.1, book := r.2.1, since := s.activity } = true) :
    t.inside = true :=
  h.inside.mpr fun houtside =>
    of_decide_eq_true ((Bool.and_eq_true ..).mp hin).2 (h.settled.stage.trans houtside)

/-- A call that has not read the marks goes on without them. -/
theorem still_outside (h : s.Arrives cfg n t b r) (hline : cfg.enabled = true)
    (houtside : b.stage = .outside) :
    Task.isOver { prog := r.1, book := r.2.1, since := s.activity } = false ∧
      Task.inside { prog := r.1, book := r.2.1, since := s.activity } = false := by
  have hstage := h.settled.stage.trans houtside
  have hobeys := h.settled.obeys
  refine ⟨?_, by simp [Task.inside, Task.now, hstage]⟩
  cases hprog : r.1 with
  | ask op k => rfl
  | fail e => exact e.elim
  | done e =>
      rw [hprog] at hobeys
      exact absurd hstage (Ends.stage hline hobeys)

/-- A call that ends once it has read the marks leaves the row with its line. -/
theorem known_of_over (h : s.Arrives cfg n t b r) (hline : cfg.enabled = true)
    (hholds : s.Holds cfg b)
    (hover : Task.isOver { prog := r.1, book := r.2.1, since := s.activity } = true) : s.Known := by
  have hends := h.settled.obeys
  have hstage := h.settled.stage
  refine hholds.known ?_
  cases hprog : r.1 with
  | fail e => exact e.elim
  | ask op k => simp [Task.isOver, hprog] at hover
  | done e =>
      rw [hprog] at hends
      cases e with
      | disabled => exact absurd ((show cfg.enabled = false from hends).symm.trans hline) nofun
      | nothingToReport => exact .inl (Book.looks.stage hends hstage)
      | unchanged => exact .inl (.inl (hstage.symm.trans hends.1))
      | notSent => exact .inr (.inl (hstage.symm.trans hends))
      | edited | posted =>
          obtain ⟨message, hstored⟩ : ∃ message, r.2.1.stage = .stored message := hends
          exact .inr (.inr ⟨message, hstage.symm.trans hstored⟩)

/-- There is a call that will read what is, as before. -/
theorem waits (h : s.Arrives cfg n t b r) (hline : cfg.enabled = true)
    (hwaits : ∃ (m : Nat) (u : Task), s.tasks[m]? = some u ∧ u.isOver = false ∧
      u.inside = false) :
    ∃ (m : Nat) (u : Task), (s.arrive n r).tasks[m]? = some u ∧ u.isOver = false ∧
      u.inside = false := by
  obtain ⟨m, u, hu, hov, hout⟩ := hwaits
  by_cases hm : m = n
  · subst hm
    obtain rfl := Option.some.inj (h.there.symm.trans hu)
    have houtside : b.stage = .outside := by
      by_contra hne
      exact Bool.eq_false_iff.mp hout (h.inside.mpr hne)
    exact ⟨m, _, h.self, h.still_outside hline houtside⟩
  · exact ⟨m, u, (h.other hm).trans hu, hov, hout⟩

theorem agrees (h : s.Arrives cfg n t b r) (hline : cfg.enabled = true) {b' b'' : Book}
    (hmarks : b''.marks = b'.marks) (hagrees : s.Agrees b') : (s.arrive n r).Agrees b'' := by
  refine hagrees.imp (fun hall => ?_) (h.waits hline)
  rw [hmarks]
  exact hall

theorem deletions (h : s.Arrives cfg n t b r) (hk : s.Kept cfg) {message : Int}
    (hmem : message ∈ deletes r.1 ++ s.asked) :
    message ∈ s.deleted ∨ message ∈ s.refused ∨
      ∃ (n' : Nat) (t' : Task) (k : _), (s.arrive n r).tasks[n']? = some t' ∧ t'.ready = none ∧
        t'.prog = .ask (.await (.deleteStatus message)) k := by
  rcases List.mem_append.mp hmem with hnew | hold
  · unfold deletes at hnew
    split at hnew
    · next message' k heq =>
        obtain rfl := List.mem_singleton.mp hnew
        exact .inr (.inr ⟨n, _, k, h.self, rfl, heq⟩)
    · cases hnew
  · rcases hk.deletions message hold with hdel | href | ⟨m, u, k, hu, hready, hprog⟩
    · exact .inl hdel
    · exact .inr (.inl href)
    · refine .inr (.inr ⟨m, u, k, (h.other ?_).trans hu, hready, hprog⟩)
      rintro rfl
      obtain rfl := Option.some.inj (h.there.symm.trans hu)
      exact h.unready hready

theorem shows (h : s.Arrives cfg n t b r) (hk : s.Kept cfg) (hline : cfg.enabled = true)
    (hidle : (s.arrive n r).Idle) {ended : Ended} {now : Int}
    (hlast : ends r.1 r.2.1 s.last = some (ended, now))
    (hdone : ended = .edited ∨ ended = .posted ∨ ended = .unchanged) :
    ∃ message, s.row.get.statusMessageId = some message ∧
      s.texts message = render cfg now s.row.get.deliveredAt s.row.get.contactReadMark := by
  have hover := hidle _ (List.mem_of_getElem? h.self)
  have hends := h.settled.obeys
  cases hprog : r.1 with
  | fail e => exact e.elim
  | ask op k => simp [Task.isOver, hprog] at hover
  | done e =>
      rw [hprog] at hends
      simp only [ends, hprog, Option.some.injEq, Prod.mk.injEq] at hlast
      obtain ⟨rfl, rfl⟩ := hlast
      have hstage := Ends.stage hline hends
      rw [h.settled.stage] at hstage
      obtain ⟨hholds, hagrees⟩ := hk.holds n t h.there (h.inside.mpr hstage)
      rw [h.now] at hholds hagrees
      have hholds' : s.Holds cfg r.2.1 :=
        hholds.mono rfl rfl rfl (fun _ => id) h.settled.stage h.settled.marks h.settled.now
      refine hholds'.shows hends ?_ hdone
      rw [h.settled.marks]
      -- Nobody is left who would read anything else.
      refine hagrees.resolve_right fun hwaits => ?_
      obtain ⟨m, u, hu, hov, -⟩ := h.waits hline hwaits
      exact absurd (hidle u (List.mem_of_getElem? hu)) (Bool.eq_false_iff.mp hov)

/-- **A task goes on** to its next await. -/
theorem kept (h : s.Arrives cfg n t b r) (hk : s.Kept cfg) (hline : cfg.enabled = true)
    (hfresh : ∀ message, b.stage = .posted message → s.covered = s.activity) :
    (s.arrive n r).Kept cfg := by
  have hasked : ∀ message ∈ s.asked, message ∈ (s.arrive n r).asked := fun message hm =>
    List.mem_append_right _ hm
  have hwas {m : Nat} {u : Task} (hu : (s.arrive n r).tasks[m]? = some u)
      (hin : u.inside = true) : ∃ v, s.tasks[m]? = some v ∧ v.inside = true := by
    rcases h.cases hu with ⟨rfl, rfl⟩ | ⟨-, hu⟩
    · exact ⟨t, h.there, h.was_inside hin⟩
    · exact ⟨u, hu, hin⟩
  constructor
  case tasks =>
    intro m u hu
    rcases h.cases hu with ⟨rfl, rfl⟩ | ⟨-, hu⟩
    · refine ⟨h.settled.obeys, h.settled.awaits, fun x b' hready => ?_⟩
      cases hready
    · exact hk.tasks m u hu
  case single =>
    intro m m' u u' hu hu' hin hin'
    obtain ⟨v, hv, hvin⟩ := hwas hu hin
    obtain ⟨v', hv', hvin'⟩ := hwas hu' hin'
    exact hk.single m m' v v' hv hv' hvin hvin'
  case holds =>
    intro m u hu hin
    rcases h.cases hu with ⟨rfl, rfl⟩ | ⟨-, hu⟩
    · obtain ⟨hholds, hagrees⟩ := hk.holds m t h.there (h.was_inside hin)
      rw [h.now] at hholds hagrees
      exact ⟨hholds.mono rfl rfl rfl hasked h.settled.stage h.settled.marks h.settled.now,
        h.agrees hline h.settled.marks hagrees⟩
    · obtain ⟨hholds, hagrees⟩ := hk.holds m u hu hin
      exact ⟨hholds.mono rfl rfl rfl hasked rfl rfl (.inr rfl), h.agrees hline rfl hagrees⟩
  case known =>
    intro hnone
    refine Known.mono (s := s) ?_ rfl rfl rfl hasked
    cases hin : t.inside with
    | true =>
        have hholds := (hk.holds n t h.there hin).1
        rw [h.now] at hholds
        refine h.known_of_over hline hholds ?_
        by_contra hover
        have hstage : r.2.1.stage ≠ .outside := h.settled.stage ▸ h.inside.mp hin
        have hout := hnone n _ h.self
        simp [Task.inside, Task.now, hstage] at hout
        exact hover hout
    | false =>
        refine hk.known fun m u hu => ?_
        by_cases hm : m = n
        · subst hm
          exact Option.some.inj (h.there.symm.trans hu) ▸ hin
        · exact hnone m u ((h.other hm).trans hu)
  case since =>
    intro m u hu hsends
    rcases h.cases hu with ⟨rfl, rfl⟩ | ⟨-, hu⟩
    · rfl
    · exact hk.since m u hu hsends
  case covered => exact hk.covered
  case stale =>
    intro hlt
    rcases h.settled.flag with hsame | ⟨message, hposted⟩
    · exact hsame.trans (hk.stale hlt)
    · exact absurd (hfresh message hposted) (Nat.ne_of_lt hlt)
  case fresh =>
    intro m u hu x b' message hready
    rcases h.cases hu with ⟨rfl, rfl⟩ | ⟨-, hu⟩
    · cases hready
    · exact hk.fresh m u hu x b' message hready
  case decisions => exact hk.decisions
  case deleting =>
    intro m u hu message k hprog
    rcases h.cases hu with ⟨rfl, rfl⟩ | ⟨-, hu⟩
    · change r.1 = _ at hprog
      exact List.mem_append_left _ (by rw [hprog]; exact List.mem_cons_self)
    · exact hasked _ (hk.deleting m u hu message k hprog)
  case deletions => exact fun message => h.deletions hk
  case shows => exact fun hidle ended now hlast hdone => h.shows hk hline hidle hlast hdone

end Arrives

/-! ## what a task awaits comes about -/

/-- A task awaits this. -/
structure Awaits (cfg : Config) (s : State) (n : Nat) (t : Task) (a : Await)
    (k : a.Reply → Prog Ended) : Prop where
  there : s.tasks[n]? = some t
  prog : t.prog = .ask (.await a) k
  unready : t.ready = none
  allowed : t.book.allows cfg a

namespace Awaits

variable {n : Nat} {t : Task} {a : Await} {k : a.Reply → Prog Ended}

theorem live (h : s.Awaits cfg n t a k) : t.isOver = false := by simp [Task.isOver, h.prog]

theorem now (h : s.Awaits cfg n t a k) : t.now = t.book := by simp [Task.now, h.unready]

/-- Nobody goes back to where it has read nothing. -/
theorem outside_of_next {b : Book} {r : a.Reply}
    (houtside : (b.next (.await a) r).stage = .outside) : b.stage = .outside := by
  cases a with
  | get =>
      change (if (r : ReadMarks).statusMessageId.isNone then Stage.cleared else .read) = _ at houtside
      split at houtside <;> cases houtside
  | editStatus | sendStatus =>
      cases r with
      | _ => first | exact houtside | cases houtside
  | deleteStatus | setStatusLine => cases houtside
  | noteDelivered | storeContactRead => exact houtside

/-- What a task has heard, before it goes on. -/
def heard (t : Task) (a : Await) (k : a.Reply → Prog Ended) (r : a.Reply) : Task :=
  { t with ready := some (k r, t.book.next (.await a) r) }

theorem live_heard (h : s.Awaits cfg n t a k) (r : a.Reply) : (heard t a k r).isOver = false :=
  h.live

theorem inside_heard (h : s.Awaits cfg n t a k) (r : a.Reply) :
    (heard t a k r).inside = true ↔ (t.book.next (.await a) r).stage ≠ .outside := by
  rw [Task.inside, h.live_heard r]
  simp only [Bool.not_false, Bool.true_and, decide_eq_true_eq]
  rfl

theorem kept_heard (h : s.Awaits cfg n t a k) (hk : s.Kept cfg) (r : a.Reply) :
    (heard t a k r).Kept cfg := by
  have ht := hk.tasks n t h.there
  refine ⟨ht.obeys, ht.awaits, fun x b hready => ?_⟩
  obtain ⟨rfl, rfl⟩ := Prod.mk.inj (Option.some.inj hready)
  exact ⟨a, k, r, h.prog, rfl, rfl⟩

/-- **An await comes about**: what it leaves beside the tasks is `s'`. -/
theorem kept (h : s.Awaits cfg n t a k) (hk : s.Kept cfg) (r : a.Reply) {s' : State}
    (htasks : s'.tasks = s.tasks.set n (heard t a k r)) (hstale : s'.stale = s.stale)
    (hactivity : s'.activity = s.activity) (hdecisions : s'.decisions = s.decisions)
    (hasked : s'.asked = s.asked)
    (halone : (t.book.next (.await a) r).stage ≠ .outside → ∀ m u, m ≠ n →
      s.tasks[m]? = some u → u.inside = false)
    (hmine : (t.book.next (.await a) r).stage ≠ .outside →
      s'.Holds cfg (t.book.next (.await a) r) ∧ s'.Agrees (t.book.next (.await a) r))
    (hothers : (t.book.next (.await a) r).stage = .outside →
      (∀ b, s.Holds cfg b → s'.Holds cfg b) ∧ (s.Known → s'.Known))
    (hcovered : s'.covered = s.covered ∨ s'.covered = s.activity)
    (hfresh : ∀ message, (t.book.next (.await a) r).stage = .posted message →
      s'.covered = s.activity)
    (hdeleted : ∀ message, message ∈ s.deleted → message ∈ s'.deleted)
    (hrefused : ∀ message, message ∈ s.refused → message ∈ s'.refused)
    (hanswered : ∀ message, a = .deleteStatus message →
      message ∈ s'.deleted ∨ message ∈ s'.refused) : s'.Kept cfg := by
  have hcases {m : Nat} {u : Task} (hu : s'.tasks[m]? = some u) :
      m = n ∧ u = heard t a k r ∨ m ≠ n ∧ s.tasks[m]? = some u :=
    Tasks.set_cases (htasks ▸ hu)
  have hself : s'.tasks[n]? = some (heard t a k r) := by
    rw [htasks]
    exact List.getElem?_set_self (List.getElem?_eq_some_iff.mp h.there).1
  have hinside := h.inside_heard r
  have hlt (hlt : s'.covered < s.activity) : s.covered < s.activity := by
    rcases hcovered with heq | heq <;> omega
  constructor
  case tasks =>
    intro m u hu
    rcases hcases hu with ⟨rfl, rfl⟩ | ⟨-, hu⟩
    · exact h.kept_heard hk r
    · exact hk.tasks m u hu
  case single =>
    intro m m' u u' hu hu' hin hin'
    rcases hcases hu with ⟨rfl, rfl⟩ | ⟨hm, hu⟩ <;> rcases hcases hu' with ⟨rfl, rfl⟩ | ⟨hm', hu'⟩
    · rfl
    · exact absurd hin' (Bool.eq_false_iff.mp (halone (hinside.mp hin) m' u' hm' hu'))
    · exact absurd hin (Bool.eq_false_iff.mp (halone (hinside.mp hin') m u hm hu))
    · exact hk.single m m' u u' hu hu' hin hin'
  case holds =>
    intro m u hu hin
    rcases hcases hu with ⟨rfl, rfl⟩ | ⟨hm, hu⟩
    · exact hmine (hinside.mp hin)
    · have houtside : (t.book.next (.await a) r).stage = .outside := by
        by_contra hne
        exact Bool.eq_false_iff.mp (halone hne m u hm hu) hin
      refine ⟨(hothers houtside).1 _ (hk.holds m u hu hin).1,
        .inr ⟨n, _, hself, h.live_heard r, ?_⟩⟩
      exact Bool.eq_false_iff.mpr fun hin => hinside.mp hin houtside
  case known =>
    intro hnone
    have houtside : (t.book.next (.await a) r).stage = .outside := by
      by_contra hne
      exact Bool.eq_false_iff.mp (hnone n _ hself) (hinside.mpr hne)
    refine (hothers houtside).2 (hk.known fun m u hu => ?_)
    by_cases hm : m = n
    · subst hm
      obtain rfl := Option.some.inj (h.there.symm.trans hu)
      simp [Task.inside, h.now, outside_of_next houtside]
    · refine hnone m u ?_
      rw [htasks]
      exact (List.getElem?_set_ne (Ne.symm hm)).trans hu
  case since =>
    intro m u hu hsends
    rw [hactivity]
    rcases hcases hu with ⟨rfl, rfl⟩ | ⟨-, hu⟩
    · exact hk.since m t h.there hsends
    · exact hk.since m u hu hsends
  case covered =>
    rw [hactivity]
    rcases hcovered with heq | heq
    · exact heq ▸ hk.covered
    · exact Nat.le_of_eq heq
  case stale =>
    rw [hactivity, hstale]
    exact fun hlt' => hk.stale (hlt hlt')
  case fresh =>
    intro m u hu x b message hready hposted
    rw [hactivity]
    rcases hcases hu with ⟨rfl, rfl⟩ | ⟨-, hu⟩
    · obtain ⟨rfl, rfl⟩ := Prod.mk.inj (Option.some.inj hready)
      exact hfresh message hposted
    · have heq := hk.fresh m u hu x b message hready hposted
      rcases hcovered with heq' | heq'
      · exact heq'.trans heq
      · exact heq'
  case decisions => exact hdecisions ▸ hk.decisions
  case deleting =>
    intro m u hu message k' hprog
    rw [hasked]
    rcases hcases hu with ⟨rfl, rfl⟩ | ⟨-, hu⟩
    · exact hk.deleting m t h.there message k' hprog
    · exact hk.deleting m u hu message k' hprog
  case deletions =>
    intro message hmem
    rw [hasked] at hmem
    rcases hk.deletions message hmem with hdel | href | ⟨m, u, k', hu, hready, hprog⟩
    · exact .inl (hdeleted message hdel)
    · exact .inr (.inl (hrefused message href))
    · by_cases hm : m = n
      · subst hm
        obtain rfl := Option.some.inj (h.there.symm.trans hu)
        have heq : a = .deleteStatus message := by
          have := h.prog.symm.trans hprog
          injection this with hop
          injection hop
        exact (hanswered message heq).imp_right .inl
      · refine .inr (.inr ⟨m, u, k', ?_, hready, hprog⟩)
        rw [htasks]
        exact (List.getElem?_set_ne (Ne.symm hm)).trans hu
  case shows =>
    intro hidle
    exact absurd (hidle _ (List.mem_of_getElem? hself)) (Bool.eq_false_iff.mp (h.live_heard r))

/-- What the renderer does, for a task that has read the marks. -/
theorem rendered (h : s.Awaits cfg n t a k) (hk : s.Kept cfg)
    (hrenderer : ∀ row, perform row a = none) (r : a.Reply) :
    Kept cfg { s.rendered t.since a r with tasks := s.tasks.set n (heard t a k r) } := by
  have hin (hstage : t.book.stage ≠ .outside) : t.inside = true := by
    simp [Task.inside, h.live, h.now, hstage]
  have halone (hstage : t.book.stage ≠ .outside) (m : Nat) (u : Task) (hm : m ≠ n)
      (hu : s.tasks[m]? = some u) : u.inside = false :=
    hk.alone_inside h.there (hin hstage) hm hu
  have hagrees (hstage : t.book.stage ≠ .outside) {s' : State} {b : Book} (hrow : s'.row = s.row)
      (htasks : s'.tasks = s.tasks.set n (heard t a k r))
      (hmarks : b.marks = t.book.marks) : s'.Agrees b := by
    have hall := (hk.holds n t h.there (hin hstage)).2
    rw [h.now] at hall
    refine hall.imp (fun hall => ?_) fun ⟨m, u, hu, hov, hout⟩ => ⟨m, u, ?_, hov, hout⟩
    · rw [hrow, hmarks]
      exact hall
    · have hm : m ≠ n := by
        rintro rfl
        obtain rfl := Option.some.inj (h.there.symm.trans hu)
        exact Bool.eq_false_iff.mp hout (hin hstage)
      rw [htasks]
      exact (List.getElem?_set_ne (Ne.symm hm)).trans hu
  have hholds (hstage : t.book.stage ≠ .outside) : s.Holds cfg t.book :=
    h.now ▸ (hk.holds n t h.there (hin hstage)).1
  have hallowed := h.allowed
  cases a with
  | noteDelivered | storeContactRead | get | setStatusLine => cases hrenderer none
  | editStatus message text =>
      obtain ⟨hread, -, hmarks, htext⟩ := hallowed
      have hstage : t.book.stage ≠ .outside := by rw [hread]; exact nofun
      have hall := hholds hstage
      simp only [Holds, hread] at hall
      cases r with
      | true =>
          refine h.kept hk true rfl rfl rfl rfl rfl (fun _ => halone hstage)
            (fun _ => ⟨?_, hagrees hstage rfl rfl rfl⟩) (fun hout => by cases hout) (.inl rfl)
            (fun _ hposted => by cases hposted) (fun _ => id) (fun _ => id)
            (fun _ hdelete => by cases hdelete)
          refine ⟨fun m hm => ?_, ?_⟩
          · exact hmarks ▸ hall.2.1 ▸ hall.1.alone m hm
          · exact (Function.update_self ..).trans htext
      | false =>
          refine h.kept hk false rfl rfl rfl rfl rfl (fun _ => halone hstage)
            (fun _ => ⟨?_, hagrees hstage rfl rfl rfl⟩) (fun hout => absurd hout hstage) (.inl rfl)
            (fun _ hposted => absurd (hread.symm.trans hposted) nofun) (fun _ => id) (fun _ => id)
            (fun _ hdelete => by cases hdelete)
          change Holds cfg _ t.book
          simp only [Holds, hread]
          exact ⟨hall.1.mono rfl rfl rfl fun _ => id, hall.2⟩
  | deleteStatus message =>
      obtain ⟨hread, hmarks⟩ := hallowed
      have hstage : t.book.stage ≠ .outside := by rw [hread]; exact nofun
      have hall := hholds hstage
      simp only [Holds, hread] at hall
      have hasked := hk.deleting n t h.there message k h.prog
      have hcleared {s' : State} (r : Bool) (hrow : s'.row = s.row)
          (hposted : s'.posted = s.posted) (htexts : s'.texts = s.texts)
          (haskedEq : s'.asked = s.asked) : s'.Holds cfg (t.book.next (.await (.deleteStatus message)) r) := by
        refine ⟨hall.1.mono hrow hposted htexts fun m hm => haskedEq ▸ hm, ?_, fun m hm => ?_⟩
        · rw [SameLine, hrow]
          exact hall.2
        · obtain rfl := Option.some.inj (hmarks.symm.trans hm)
          exact haskedEq ▸ hasked
      cases r with
      | true =>
          refine h.kept hk true rfl rfl rfl rfl rfl (fun _ => halone hstage)
            (fun _ => ⟨hcleared true rfl rfl rfl rfl, hagrees hstage rfl rfl rfl⟩)
            (fun hout => by cases hout) (.inl rfl) (fun _ hposted => by cases hposted)
            (fun _ hm => List.mem_cons_of_mem _ hm) (fun _ => id) ?_
          rintro _ ⟨⟩
          exact .inl List.mem_cons_self
      | false =>
          refine h.kept hk false rfl rfl rfl rfl rfl (fun _ => halone hstage)
            (fun _ => ⟨hcleared false rfl rfl rfl rfl, hagrees hstage rfl rfl rfl⟩)
            (fun hout => by cases hout) (.inl rfl) (fun _ hposted => by cases hposted)
            (fun _ => id) (fun _ hm => List.mem_cons_of_mem _ hm) ?_
          rintro _ ⟨⟩
          exact .inr List.mem_cons_self
  | sendStatus text =>
      obtain ⟨hcleared, htext⟩ := hallowed
      have hstage : t.book.stage ≠ .outside := by rw [hcleared]; exact nofun
      have hall := hholds hstage
      simp only [Holds, hcleared] at hall
      cases r with
      | none =>
          refine h.kept hk none rfl rfl rfl rfl rfl (fun _ => halone hstage)
            (fun _ => ⟨?_, hagrees hstage rfl rfl rfl⟩) (fun hout => by cases hout) (.inl rfl)
            (fun _ hposted => by cases hposted) (fun _ => id) (fun _ => id)
            (fun _ hdelete => by cases hdelete)
          exact hall.1.mono (s := s) rfl rfl rfl fun _ => id
      | some new =>
          have hcovered : max s.covered t.since = s.activity := by
            rw [hk.since n t h.there (by simp [Task.sends, h.prog])]
            exact Nat.max_eq_right hk.covered
          refine h.kept hk (some new) rfl rfl rfl rfl rfl (fun _ => halone hstage)
            (fun _ => ⟨?_, hagrees hstage rfl rfl rfl⟩) (fun hout => by cases hout) (.inr hcovered)
            (fun _ _ => hcovered) (fun _ => id) (fun _ => id) (fun _ hdelete => by cases hdelete)
          refine ⟨fun m hm => ?_, (Function.update_self ..).trans htext⟩
          rcases List.mem_cons.mp hm with rfl | hm
          · exact .inl rfl
          · refine .inr ((hall.1.alone m hm).elim (fun hline => ?_) id)
            exact hall.2.2 m (hall.2.1.1.trans hline)

/-- A mark is stored: the line is as it was, and a call is left that will read the mark. -/
theorem marked (h : s.Awaits cfg n t a k) (hk : s.Kept cfg) (houtside : t.book.stage = .outside)
    (r : a.Reply) (hnext : t.book.next (.await a) r = t.book) {row : ReadState}
    (hmessage : row.get.statusMessageId = s.row.get.statusMessageId)
    (htext : row.get.statusText = s.row.get.statusText) (hdelete : ∀ m, a ≠ .deleteStatus m) :
    Kept cfg { s with row, tasks := s.tasks.set n (heard t a k r) } := by
  have hknown (hk : s.Known) :
      Known { s with row, tasks := s.tasks.set n (heard t a k r) } := by
    refine ⟨fun m hm => ?_, fun m hm => ?_⟩
    · exact hmessage ▸ hk.alone m hm
    · exact htext.trans (hk.text m (hmessage.symm.trans hm))
  have hnot : ¬(t.book.next (.await a) r).stage ≠ .outside := by
    rw [hnext]
    exact fun hne => hne houtside
  refine h.kept hk r rfl rfl rfl rfl rfl (fun hne => absurd hne hnot) (fun hne => absurd hne hnot)
    (fun _ => ⟨fun b hb => ?_, hknown⟩) (.inl rfl) (fun m hposted => ?_) (fun _ => id) (fun _ => id)
    (fun m heq => absurd heq (hdelete m))
  · have hsame (hl : s.SameLine b) :
        SameLine { s with row, tasks := s.tasks.set n (heard t a k r) } b :=
      ⟨hl.1.trans hmessage.symm, hl.2.trans htext.symm⟩
    unfold Holds at hb ⊢
    cases hstage : b.stage <;> rw [hstage] at hb
    case outside => trivial
    case read => exact ⟨hknown hb.1, hsame hb.2⟩
    case cleared => exact ⟨hknown hb.1, hsame hb.2.1, hb.2.2⟩
    case edited | posted => exact hb
    case notSent => exact hknown hb
    case stored => exact ⟨hknown hb.1, hmessage.trans hb.2.1, hb.2.2⟩
  · rw [hnext, houtside] at hposted
    cases hposted

/-- The marks are read, while nobody else has. -/
theorem read {k : ReadMarks → Prog Ended} (h : s.Awaits cfg n t .get k) (hk : s.Kept cfg)
    (hcareful : ∀ u ∈ s.tasks, u.inside = false) :
    Kept cfg { s with tasks := s.tasks.set n (heard t .get k s.row.get) } := by
  have hnone (m : Nat) (u : Task) (hu : s.tasks[m]? = some u) : u.inside = false :=
    hcareful u (List.mem_of_getElem? hu)
  have hknown : Known { s with tasks := s.tasks.set n (heard t .get k s.row.get) } :=
    (hk.known hnone).mono rfl rfl rfl fun _ => id
  have hnext : (t.book.next (.await .get) s.row.get).stage =
      if s.row.get.statusMessageId.isNone then .cleared else .read := rfl
  refine h.kept hk s.row.get rfl rfl rfl rfl rfl (fun _ m u _ => hnone m u) (fun _ => ⟨?_, ?_⟩)
    (fun hout => ?_) (.inl rfl) (fun m hposted => ?_) (fun _ => id) (fun _ => id)
    (fun m heq => by cases heq)
  · unfold Holds
    rw [hnext]
    cases hmessage : s.row.get.statusMessageId with
    | none =>
        refine ⟨hknown, ⟨rfl, rfl⟩, fun m hm => ?_⟩
        exact absurd (hmessage.symm.trans hm) nofun
    | some message => exact ⟨hknown, rfl, rfl⟩
  · exact .inl ⟨rfl, rfl⟩
  · rw [hnext] at hout
    split at hout <;> cases hout
  · rw [hnext] at hposted
    split at hposted <;> cases hposted

/-- The new line is stored. -/
theorem stored {message : Int} {text : String} {k : Unit → Prog Ended}
    (h : s.Awaits cfg n t (.setStatusLine message text) k) (hk : s.Kept cfg) :
    Kept cfg { s with
      row := s.row.setStatusLine (some message) (some text)
      tasks := s.tasks.set n (heard t (.setStatusLine message text) k ()) } := by
  obtain ⟨hstage, htext⟩ := h.allowed
  have hin : t.inside = true := by
    rcases hstage with hstage | hstage <;> simp [Task.inside, h.live, h.now, hstage]
  obtain ⟨hholds, hagrees⟩ := hk.holds n t h.there hin
  rw [h.now] at hholds hagrees
  have hline : s.Alone (some message) ∧ s.texts message = t.book.text cfg := by
    unfold Holds at hholds
    rcases hstage with hstage | hstage <;> rwa [hstage] at hholds
  refine h.kept hk () rfl rfl rfl rfl rfl (fun _ m u hm => hk.alone_inside h.there hin hm)
    (fun _ => ⟨⟨⟨?_, fun m hm => ?_⟩, ?_, hline.2⟩, ?_⟩) (fun hout => by cases hout) (.inl rfl)
    (fun m hposted => by cases hposted) (fun _ => id) (fun _ => id) (fun m heq => by cases heq)
  · rw [ReadState.statusMessageId_setStatusLine]
    exact hline.1
  · rw [ReadState.statusMessageId_setStatusLine] at hm
    obtain rfl := Option.some.inj hm
    rw [ReadState.statusText_setStatusLine, htext]
    exact congrArg some hline.2.symm
  · exact ReadState.statusMessageId_setStatusLine ..
  · refine hagrees.imp (fun hall => ?_) fun ⟨m, u, hu, hov, hout⟩ => ⟨m, u, ?_, hov, hout⟩
    · rw [ReadState.deliveredAt_setStatusLine, ReadState.contactReadMark_setStatusLine]
      exact hall
    · have hm : m ≠ n := by
        rintro rfl
        obtain rfl := Option.some.inj (h.there.symm.trans hu)
        exact Bool.eq_false_iff.mp hout hin
      exact (List.getElem?_set_ne (Ne.symm hm)).trans hu

/-- A statement is executed. -/
theorem executed (h : s.Awaits cfg n t a k) (hk : s.Kept cfg)
    (hcareful : a = .get → ∀ u ∈ s.tasks, u.inside = false) {r : a.Reply} {row : ReadState}
    (hperform : perform s.row a = some (r, row)) :
    Kept cfg { s with row, tasks := s.tasks.set n (heard t a k r) } := by
  have hallowed := h.allowed
  cases a with
  | editStatus | deleteStatus | sendStatus => cases hperform
  | noteDelivered at_ =>
      obtain ⟨rfl, rfl⟩ := Prod.mk.inj (Option.some.inj hperform)
      exact h.marked hk hallowed.1 () rfl (ReadState.statusMessageId_noteDelivered ..)
        (ReadState.statusText_noteDelivered ..) fun m heq => by cases heq
  | storeContactRead current mark ticked =>
      obtain ⟨rfl, rfl⟩ := Prod.mk.inj (Option.some.inj hperform)
      exact h.marked hk hallowed.1 () rfl (ReadState.statusMessageId_writeContactRead ..)
        (ReadState.statusText_writeContactRead ..) fun m heq => by cases heq
  | get =>
      obtain ⟨rfl, rfl⟩ := Prod.mk.inj (Option.some.inj hperform)
      exact h.read hk (hcareful rfl)
  | setStatusLine message text =>
      obtain ⟨rfl, rfl⟩ := Prod.mk.inj (Option.some.inj hperform)
      exact h.stored hk

end Awaits

/-! ## the steps -/

namespace Kept

variable {n : Nat} {t : Task}

theorem activity (h : s.Kept cfg) (hcareful : s.careful .activity = true) :
    Kept cfg { s with stale := true, activity := s.activity + 1 } := by
  have hsends (m : Nat) (u : Task) (hu : s.tasks[m]? = some u) : u.sends = false := by
    simpa using List.all_eq_true.mp hcareful u (List.mem_of_getElem? hu)
  have hknown (hk : s.Known) : Known { s with stale := true, activity := s.activity + 1 } :=
    hk.mono rfl rfl rfl fun _ => id
  refine ⟨h.tasks, h.single, fun m u hu hin => ⟨?_, (h.holds m u hu hin).2⟩,
    fun hnone => hknown (h.known hnone), fun m u hu hs => ?_, Nat.le_succ_of_le h.covered,
    fun _ => rfl, fun m u hu x b message hready hposted => ?_, h.decisions, h.deleting, h.deletions,
    h.shows⟩
  · exact (h.holds m u hu hin).1.mono rfl rfl rfl (fun _ => id) rfl rfl (.inr rfl)
  · exact absurd hs (Bool.eq_false_iff.mp (hsends m u hu))
  · -- Only a new line is posted, and nobody has asked for one.
    obtain ⟨a, k, r, hprog, -, rfl⟩ := (h.tasks m u hu).ready x b hready
    have hobeys := (h.tasks m u hu).obeys
    rw [hprog] at hobeys
    have hallowed : u.book.allows cfg a := hobeys.1
    have hnot := hsends m u hu
    cases a with
    | sendStatus => simp [Task.sends, hprog] at hnot
    | deleteStatus | setStatusLine => cases hposted
    | noteDelivered | storeContactRead => cases hallowed.1.symm.trans hposted
    | get =>
        change (if (r : ReadMarks).statusMessageId.isNone then Stage.cleared else .read) = _ at hposted
        split at hposted <;> cases hposted
    | editStatus =>
        cases r with
        | true => cases hposted
        | false => cases hallowed.1.symm.trans hposted

theorem program_asks (hline : cfg.enabled = true) (kind : Kind) :
    ∃ a k, kind.program cfg = .ask (.await a) k := by
  cases kind with
  | delivered at_ =>
      simp only [Kind.program, noteDelivered, hline]
      exact ⟨_, _, rfl⟩
  | read current mark ticked => exact ⟨_, _, rfl⟩

/-- A call begins. -/
theorem noted (h : s.Kept cfg) (hline : cfg.enabled = true) (kind : Kind) :
    Kept cfg { s with tasks := s.tasks ++ [{ prog := kind.program cfg }] } := by
  obtain ⟨a, k, hprog⟩ := program_asks hline kind
  have hself : (s.tasks ++ [({ prog := kind.program cfg } : Task)])[s.tasks.length]? =
      some { prog := kind.program cfg } := List.getElem?_concat_length
  have hover : Task.isOver { prog := kind.program cfg } = false := by simp [Task.isOver, hprog]
  have hout : Task.inside { prog := kind.program cfg } = false := by simp [Task.inside, Task.now]
  have hcases {m : Nat} {u : Task} (hu : (s.tasks ++ [({ prog := kind.program cfg } : Task)])[m]? =
      some u) : u = { prog := kind.program cfg } ∨ s.tasks[m]? = some u :=
    (Tasks.append_cases hu).imp_left And.right
  have hold {m : Nat} {u : Task} (hu : s.tasks[m]? = some u) :
      (s.tasks ++ [({ prog := kind.program cfg } : Task)])[m]? = some u := by
    rw [List.getElem?_append_left (List.getElem?_eq_some_iff.mp hu).1]
    exact hu
  constructor
  case tasks =>
    intro m u hu
    rcases hcases hu with rfl | hu
    · refine ⟨obeys_program kind, fun op k' heq => ?_, fun x b hready => ?_⟩
      · cases hprog.symm.trans heq
        exact ⟨a, rfl⟩
      · cases hready
    · exact h.tasks m u hu
  case single =>
    intro m m' u u' hu hu' hin hin'
    rcases hcases hu with rfl | hu
    · exact absurd hin (Bool.eq_false_iff.mp hout)
    · rcases hcases hu' with rfl | hu'
      · exact absurd hin' (Bool.eq_false_iff.mp hout)
      · exact h.single m m' u u' hu hu' hin hin'
  case holds =>
    intro m u hu hin
    rcases hcases hu with rfl | hu
    · exact absurd hin (Bool.eq_false_iff.mp hout)
    · refine ⟨(h.holds m u hu hin).1.mono rfl rfl rfl (fun _ => id) rfl rfl (.inr rfl), ?_⟩
      exact .inr ⟨_, _, hself, hover, hout⟩
  case known =>
    intro hnone
    exact (h.known fun m u hu => hnone m u (hold hu)).mono rfl rfl rfl fun _ => id
  case since =>
    intro m u hu hsends
    rcases hcases hu with rfl | hu
    · have hobeys := @obeys_program cfg kind
      unfold Task.sends at hsends
      split at hsends
      · next text k' heq =>
          change kind.program cfg = _ at heq
          rw [heq] at hobeys
          cases hobeys.1.1
      · cases hsends
    · exact h.since m u hu hsends
  case covered => exact h.covered
  case stale => exact h.stale
  case fresh =>
    intro m u hu x b message hready
    rcases hcases hu with rfl | hu
    · cases hready
    · exact h.fresh m u hu x b message hready
  case decisions => exact h.decisions
  case deleting =>
    intro m u hu message k' hdelete
    rcases hcases hu with rfl | hu
    · have hobeys := @obeys_program cfg kind
      change kind.program cfg = _ at hdelete
      rw [hdelete] at hobeys
      cases hobeys.1.1
    · exact h.deleting m u hu message k' hdelete
  case deletions =>
    intro message hmem
    refine (h.deletions message hmem).imp_right (Or.imp_right ?_)
    rintro ⟨m, u, k', hu, hready, hdelete⟩
    exact ⟨m, u, k', hold hu, hready, hdelete⟩
  case shows =>
    intro hidle
    exact absurd (hidle _ (List.mem_of_getElem? hself)) (Bool.eq_false_iff.mp hover)

theorem executed (h : s.Kept cfg) (hcareful : s.careful (.exec n) = true)
    (hst : s.step cfg (.exec n) = some s') : s'.Kept cfg := by
  simp only [State.step] at hst
  split at hst
  · next t ht =>
      split at hst
      · next a k hprog =>
          split at hst
          · next hready =>
              obtain ⟨⟨r, row⟩, hperform, rfl⟩ := Option.map_eq_some_iff.mp hst
              have hallowed := (h.tasks n t ht).obeys
              rw [hprog] at hallowed
              have haw : s.Awaits cfg n t a k :=
                ⟨ht, hprog, Option.isNone_iff_eq_none.mp hready, hallowed.1⟩
              refine haw.executed h ?_ hperform
              rintro rfl
              simpa [careful, ht, Task.reads, hprog] using hcareful
          · cases hst
      · cases hst
  · cases hst

theorem resumed (h : s.Kept cfg) (hline : cfg.enabled = true) {now : Int}
    (hst : s.step cfg (.resume n now) = some s') : s'.Kept cfg := by
  simp only [State.step] at hst
  split at hst
  · next t ht =>
      obtain ⟨⟨x, b⟩, hready, rfl⟩ := Option.map_eq_some_iff.mp hst
      obtain ⟨a, k, r, hprog, rfl, hb⟩ := (h.tasks n t ht).ready x b hready
      have hallowed := (h.tasks n t ht).obeys
      rw [hprog] at hallowed
      have hover : t.isOver = false := by simp [Task.isOver, hprog]
      have hnow : t.now = b := by simp [Task.now, hready]
      have hunready : t.ready ≠ none := by rw [hready]; exact nofun
      have hsettled : Settled cfg b s.stale (settle now (k r) b s.stale) :=
        settled_settle now s.stale (hb ▸ hallowed.2 r)
      dsimp only
      split
      · next hreads =>
          -- The refresh looks at the line.
          have hdecision : (s.decision now (k r) b).activity = true →
              (s.decision now (k r) b).choice = .blank ∨
                (s.decision now (k r) b).choice = .repost := by
            intro hactivity
            have hstale := h.stale (of_decide_eq_true hactivity)
            cases a with
            | get =>
                have hnone : b.stale = none := hb ▸ hallowed.1.2
                have hlooks : b.looks := by
                  rw [hb]
                  change (if (r : ReadMarks).statusMessageId.isNone then Stage.cleared else .read) = _ ∨
                    (if (r : ReadMarks).statusMessageId.isNone then Stage.cleared else .read) = _
                  split
                  · exact .inr rfl
                  · exact .inl rfl
                refine choice_of_stale hline hlooks hnone ?_
                rwa [← hstale]
            | _ => simp [Task.reads, hprog] at hreads
          have hkept : Kept cfg { s with decisions := s.decision now (k r) b :: s.decisions } :=
            { h with
              holds := fun m u hu hin => ⟨(h.holds m u hu hin).1.mono rfl rfl rfl (fun _ => id) rfl
                rfl (.inr rfl), (h.holds m u hu hin).2⟩
              known := fun hnone => (h.known hnone).mono rfl rfl rfl fun _ => id
              decisions := fun d hd => (List.mem_cons.mp hd).elim (fun heq => heq ▸ hdecision)
                (h.decisions d) }
          exact Arrives.kept ⟨ht, hover, hunready, hnow, hsettled⟩ hkept hline
            fun message => h.fresh n t ht _ _ message hready
      · exact Arrives.kept ⟨ht, hover, hunready, hnow, hsettled⟩ h hline
          fun message => h.fresh n t ht _ _ message hready
  · cases hst

theorem answered (h : s.Kept cfg) (hline : cfg.enabled = true) {reply : Reply}
    (hst : s.step cfg (.answer n reply) = some s') : s'.Kept cfg := by
  simp only [State.step] at hst
  split at hst
  · next t ht =>
      split at hst
      · next a k hprog =>
          split at hst
          · next hready =>
              obtain ⟨r, hfit, rfl⟩ := Option.map_eq_some_iff.mp hst
              have hallowed := (h.tasks n t ht).obeys
              rw [hprog] at hallowed
              have haw : s.Awaits cfg n t a k :=
                ⟨ht, hprog, Option.isNone_iff_eq_none.mp ((Bool.and_eq_true ..).mp hready).1,
                  hallowed.1⟩
              have hrenderer (row : ReadState) : perform row a = none := by
                cases reply <;> cases a <;> first | rfl | cases hfit
              have hkept := haw.rendered h hrenderer r
              have hstale : (s.rendered t.since a r).stale = s.stale := by
                unfold State.rendered
                split <;> rfl
              have htasks : (s.rendered t.since a r).tasks = s.tasks := by
                unfold State.rendered
                split <;> rfl
              have hself : (s.tasks.set n (Awaits.heard t a k r))[n]? =
                  some (Awaits.heard t a k r) :=
                List.getElem?_set_self (List.getElem?_eq_some_iff.mp ht).1
              -- To be told and to go on are one step here.
              have hkept' := Arrives.kept (r := settle t.book.now (k r) (t.book.next (.await a) r)
                  s.stale) ⟨hself, haw.live_heard r, nofun, rfl, ?_⟩ hkept hline
                fun message hposted => hkept.fresh n _ hself _ _ message rfl hposted
              · convert hkept' using 1
                simp only [State.advance, arrive, hstale, htasks, List.set_set]
              · rw [hstale]
                exact settled_settle _ _ (hallowed.2 r)
          · cases hst
      · cases hst
  · cases hst

theorem start (cfg : Config) : Kept cfg (sys cfg).start where
  tasks := fun n t h => by cases h
  single := fun m n t u h => by cases h
  holds := fun n t h => by cases h
  known := fun _ => ⟨fun _ h => (by cases h), fun _ h => by cases h⟩
  since := fun n t h => by cases h
  covered := Nat.le_refl _
  stale := fun h => absurd h (Nat.lt_irrefl _)
  fresh := fun n t h => by cases h
  decisions := fun d h => by cases h
  deleting := fun n t h => by cases h
  deletions := fun m h => by cases h
  shows := fun _ ended now h => by cases h

/-- **One step.** -/
theorem step (h : s.Kept cfg) (hline : cfg.enabled = true) {e : Event}
    (hcareful : s.careful e = true) (hst : s.step cfg e = some s') : s'.Kept cfg := by
  cases e with
  | activity =>
      obtain rfl := Option.some.inj hst
      simp only [hline, if_true]
      exact h.activity hcareful
  | note kind =>
      obtain rfl := Option.some.inj hst
      exact h.noted hline kind
  | exec n => exact h.executed hcareful hst
  | resume n now => exact h.resumed hline hst
  | answer n reply => exact h.answered hline hst

/-- Who has asked for a deletion is at the line. -/
theorem inside_of_deletes (h : s.Kept cfg) {n : Nat} {t : Task} {message : Int}
    {k : (Op.await (.deleteStatus message)).Answer → Prog Ended} (ht : s.tasks[n]? = some t)
    (hready : t.ready = none) (hprog : t.prog = .ask (.await (.deleteStatus message)) k) :
    t.inside = true := by
  have hobeys := (h.tasks n t ht).obeys
  rw [hprog] at hobeys
  have hstage : t.book.stage = .read := hobeys.1.1
  simp [Task.inside, Task.isOver, Task.now, hprog, hready, hstage]

/-- Between two refreshes there is one line. -/
theorem oneLine (h : s.Kept cfg) : s.OneLine cfg := by
  have hknown (hstill : s.Still) : s.Known :=
    h.known fun n t ht => hstill t (List.mem_of_getElem? ht)
  refine ⟨fun hstill => (hknown hstill).alone, fun hstill hnone message hmem hdel => ?_, h.shows,
    h.stale, h.decisions⟩
  refine ((hknown hstill).alone message hmem).resolve_right fun hasked => ?_
  rcases h.deletions message hasked with hin | hin | ⟨n, t, k, ht, hready, hprog⟩
  · exact hdel hin
  · rw [hnone] at hin
    cases hin
  · have hinside := h.inside_of_deletes ht hready hprog
    rw [hstill t (List.mem_of_getElem? ht)] at hinside
    cases hinside

end Kept

/-- A line that shows the hours since midnight. -/
def onTheHour : Config := ⟨.line, fun _ moment => if moment < 12 then "10:00" else "14:00"⟩

end State

end Telemax.Presence.StatusLine
