import Telemax.MaxClient.StateFiles

/-!
# Telemax.MaxClient.Identity

What the account shows of the phone it runs on: the device identity, drawn once
and read from disk ever after, and the launch counter.  Both are read from a
state file or from its copy, and written back.
-/

namespace Telemax.MaxClient

open Script

structure MaxIdentity where
  deviceName : String
  osVersion : String
  screen : String
  arch : String
  deviceId : String
  locale : String
  timezone : String
  deriving DecidableEq, Repr

namespace MaxIdentity

/-- `asdict`. -/
def asdict (i : MaxIdentity) : List (String × String) :=
  [("device_name", i.deviceName), ("os_version", i.osVersion), ("screen", i.screen),
    ("arch", i.arch), ("device_id", i.deviceId), ("locale", i.locale), ("timezone", i.timezone)]

/-- `_parse`: every field, or nothing. -/
def parse : Document → Option MaxIdentity
  | .object decoded => do
      return {
        deviceName := ← decoded.lookup "device_name"
        osVersion := ← decoded.lookup "os_version"
        screen := ← decoded.lookup "screen"
        arch := ← decoded.lookup "arch"
        deviceId := ← decoded.lookup "device_id"
        locale := ← decoded.lookup "locale"
        timezone := ← decoded.lookup "timezone" }
  | _ => none

end MaxIdentity

def FALLBACK_TIMEZONE : String := "Europe/Moscow"

/-- `MaxIdentity(device_id=…, **LEGACY_IDENTITY)`. -/
def LEGACY_IDENTITY (deviceId : String) : MaxIdentity where
  deviceName := "Google Pixel 6"
  osVersion := "Android 14"
  screen := "411dpi 411dpi 1080x2400"
  arch := "arm64-v8a"
  deviceId := deviceId
  locale := "ru"
  timezone := "Europe/Moscow"

def newDeviceId : FileProg String := query FileOp.tokenHex

/-- `_draw`; an empty zone is none. -/
def draw (timezone : Option String) (sessionExists : Bool) : FileProg MaxIdentity := do
  if sessionExists then
    return LEGACY_IDENTITY (← newDeviceId)
  else
    let (deviceName, osVersion, screen, arch) ← (query FileOp.choice : FileProg Device)
    return {
      deviceName, osVersion, screen, arch
      deviceId := ← newDeviceId
      locale := "ru"
      timezone := (timezone.filter (· ≠ "")).getD FALLBACK_TIMEZONE }

/-- `_write`: an identity that cannot be kept is a line in the log. -/
def writeIdentity (identity : MaxIdentity) : FileProg Unit :=
  catchOSError (writeAtomic (.object identity.asdict)) (pure ())

/-- `_say_repaired`. -/
def sayRepaired (reason : String) : FileProg Unit := query (FileOp.onRepair reason)

/-- `not path.exists() and not ….bak.exists()`. -/
def nothingWritten : FileProg Bool := do
  if ← fileExists .primary then
    return false
  else
    return !(← fileExists .backup)

/-- Neither copy gave an identity: one is drawn, and written. -/
def replaceIdentity (timezone : Option String) (sessionExists : Bool) :
    FileProg MaxIdentity := do
  if ← nothingWritten then
    let identity ← draw timezone sessionExists
    writeIdentity identity
    return identity
  else
    let identity := LEGACY_IDENTITY (← newDeviceId)
    writeIdentity identity
    sayRepaired "the MAX identity file and its copy were both unreadable; a replacement was written once and will not change again. If you have a backup of data/max-session, restoring it keeps the device this account was using."
    return identity

def loadOrCreate (timezone : Option String) (sessionExists : Bool) : FileProg MaxIdentity := do
  match ← readWithBackup MaxIdentity.parse with
  | (some stored, false) =>
      let _ ← ensureBackup
      return stored
  | (some stored, true) =>
      writeIdentity stored
      sayRepaired "the MAX identity file was unreadable and was restored from identity.json.bak; the account keeps the same device"
      return stored
  | (none, _) => replaceIdentity timezone sessionExists

/-- `int(raw.strip())`. -/
def parseCount : Document → Option Int
  | .number n => some n
  | _ => none

def nextClientSessionId : FileProg Int := do
  let (stored, _) ← readWithBackup parseCount
  let current := stored.getD 0 + 1
  catchOSError (writeAtomic (.number current)) (pure ())
  return current

/-! ## the identity -/

/-- A primary may go bad at any moment. -/
def anyMoment (_ : Pair) : Bool := true

/-- The copy is there to recover from, and the primary says nothing else. -/
structure KeepsIdentity (shown : MaxIdentity) (p : Pair) : Prop where
  backup : p.backup.parses MaxIdentity.parse = some shown
  primary : ∀ i, p.primary.parses MaxIdentity.parse = some i → i = shown

theorem KeepsIdentity.stable (shown : MaxIdentity) :
    Stable MaxIdentity.parse anyMoment (KeepsIdentity shown) := by
  refine fun p q h _ hbackup hbad => ⟨hbackup ▸ h.backup, fun i hi => ?_⟩
  rw [hbad] at hi
  cases hi

theorem KeepsIdentity.copy {shown : MaxIdentity} (p : Pair) (h : KeepsIdentity shown p) :
    ∃ i, p.backup.parses MaxIdentity.parse = some i :=
  ⟨shown, h.backup⟩

/-- A text the primary holds goes into the copy. -/
theorem KeepsIdentity.copied {shown : MaxIdentity} (p q : Pair) (doc : Document) (i : MaxIdentity)
    (h : KeepsIdentity shown p) (hp : p.primary = .text doc)
    (hdoc : MaxIdentity.parse doc = some i)
    (hq : q = p ∨ q.primary.parses MaxIdentity.parse = none) :
    KeepsIdentity shown { q with backup := .text doc } where
  backup := by
    have hi : p.primary.parses MaxIdentity.parse = some i := by rw [hp]; exact hdoc
    exact hdoc.trans (congrArg some (h.primary i hi))
  primary i' hi' := by
    rcases hq with rfl | hbad
    · exact h.primary i' hi'
    · exact absurd (hbad.symm.trans hi') nofun

/-- The identity that is shown is written beside the copy. -/
theorem KeepsIdentity.written {shown : MaxIdentity} {backup : Contents}
    (h : backup.parses MaxIdentity.parse = some shown) :
    KeepsIdentity shown ⟨.text (.object shown.asdict), backup⟩ :=
  ⟨h, fun _ hi => (Option.some.inj hi).symm⟩

/-- **The identity is the one on disk**, wherever the load is stopped and whenever the primary goes
bad. -/
theorem endures_loadOrCreate {shown : MaxIdentity} {s : Slot} (h : KeepsIdentity shown s.pair)
    (timezone : Option String) (sessionExists : Bool) :
    Endures MaxIdentity.parse anyMoment (KeepsIdentity shown) s (loadOrCreate timezone sessionExists)
      fun t r => r = .ok shown ∧ t.whole MaxIdentity.parse = true := by
  have hstable := KeepsIdentity.stable shown
  refine (endures_readWithBackup hstable h KeepsIdentity.copy).bind (fun _ _ _ hq => ?_) ?_
  · rcases hq with ⟨-, i, -, hr⟩ | ⟨-, i, -, hr⟩ <;> cases hr
  rintro t _ ht (⟨-, i, hi, hr⟩ | ⟨-, i, hi, hr⟩)
  · obtain rfl := Except.ok.inj hr
    obtain rfl := ht.primary i hi
    have hwhole : t.whole MaxIdentity.parse = true := by
      simp [Slot.whole, Pair.bothParse, hi, ht.backup]
    refine (endures_ensureBackup hstable ht fun _ hp => Contents.ne_absent hp.backup).bind
      (fun _ _ _ hq => ?_) ?_
    · cases hq.2
    rintro u _ hu ⟨hhit, -⟩
    exact ⟨hu, rfl, hhit.whole hwhole⟩
  · obtain rfl := Except.ok.inj hr
    obtain rfl := Option.some.inj (ht.backup.symm.trans hi)
    refine (endures_writeOrLog hstable hstable ht (fun _ hp => hp) KeepsIdentity.copy
      ⟨shown, rfl⟩ KeepsIdentity.copied (fun p doc i hp hdoc hi => ?_)
      fun p hp _ => KeepsIdentity.written hp.backup).bind (fun _ _ _ hq => ?_) ?_
    · have hcopied := KeepsIdentity.copied p p doc i hp hdoc hi (.inl rfl)
      exact KeepsIdentity.written hcopied.backup
    · cases hq.1
    rintro u _ hu ⟨-, -, hwhole⟩
    refine (endures_onRepair hstable hu _).bind (fun _ _ _ hq => ?_) ?_
    · cases hq.2
    rintro x _ hx ⟨hhit, -⟩
    exact ⟨hx, rfl, hhit.whole hwhole⟩

/-! ## the launch counter -/

theorem parses_number {c : Contents} {n : Int} (h : c.parses parseCount = some n) :
    c = .text (.number n) := by
  cases c with
  | text doc =>
      cases doc with
      | number m => exact congrArg _ (congrArg _ (Option.some.inj h))
      | object _ | other _ => cases h
  | absent | unreadable | undecodable => cases h

/-- The copy is no more than one launch behind the primary. -/
def Pair.abreast (p : Pair) : Bool :=
  match p.primary.parses parseCount, p.backup.parses parseCount with
  | some n, some m => decide (n ≤ m + 1)
  | _, _ => true

/-- The launch counter: no launch after `last` is lost, and it has been counted. -/
structure KeepsCount (last : Int) (p : Pair) : Prop where
  backup : ∃ m, p.backup = .text (.number m) ∧ 1 ≤ m ∧
    (p.primary.parses parseCount = none → last ≤ m + 1)
  primary : ∀ n, p.primary = .text (.number n) → 1 ≤ n ∧ last ≤ n

/-- A primary whose copy is abreast of it may go bad. -/
theorem KeepsCount.stable (last : Int) : Stable parseCount Pair.abreast (KeepsCount last) := by
  intro p q h habreast hbackup hbad
  obtain ⟨m, hm, hpos, hlast⟩ := h.backup
  refine ⟨⟨m, hbackup.trans hm, hpos, fun _ => ?_⟩, fun n hn => ?_⟩
  · cases hp : p.primary.parses parseCount with
    | none => exact hlast hp
    | some n =>
        have hcopy : p.backup.parses parseCount = some m := by
          rw [hm]
          rfl
        have hle : n ≤ m + 1 := by simpa [Pair.abreast, hp, hcopy] using habreast
        have := (h.primary n (parses_number hp)).2
        omega
  · rw [hn] at hbad
    cases hbad

theorem KeepsCount.copy {last : Int} (p : Pair) (h : KeepsCount last p) :
    ∃ m, p.backup.parses parseCount = some m := by
  obtain ⟨m, hm, -⟩ := h.backup
  exact ⟨m, by rw [hm]; rfl⟩

theorem KeepsCount.mono {last current : Int} (hle : last ≤ current) (p : Pair)
    (h : KeepsCount current p) : KeepsCount last p where
  backup := by
    obtain ⟨m, hm, hpos, hlast⟩ := h.backup
    exact ⟨m, hm, hpos, fun hbad => Int.le_trans hle (hlast hbad)⟩
  primary n hn := ⟨(h.primary n hn).1, Int.le_trans hle (h.primary n hn).2⟩

/-- A count the primary holds goes into the copy before the next one is written. -/
theorem KeepsCount.copied {last : Int} (p q : Pair) (doc : Document) (n : Int)
    (h : KeepsCount last p) (hp : p.primary = .text doc) (hdoc : parseCount doc = some n)
    (hq : q = p ∨ q.primary.parses parseCount = none) :
    KeepsCount last { q with backup := .text doc } := by
  have hnum : Contents.text doc = .text (.number n) := parses_number hdoc
  obtain ⟨hone, hle⟩ := h.primary n (hp.trans hnum)
  refine ⟨⟨n, hnum, hone, fun _ => by omega⟩, fun n' hn' => ?_⟩
  rcases hq with rfl | hbad
  · exact h.primary n' hn'
  · rw [show q.primary = _ from hn'] at hbad
    cases hbad

/-- A count is written beside a copy that counts a launch. -/
theorem KeepsCount.written {current m : Int} (hcurrent : 1 ≤ current) (hm : 1 ≤ m) :
    KeepsCount current ⟨.text (.number current), .text (.number m)⟩ := by
  refine ⟨⟨m, rfl, hm, nofun⟩, ?_⟩
  rintro _ ⟨rfl⟩
  exact ⟨hcurrent, Int.le_refl _⟩

/-- **No launch is counted below the one before**, wherever the count is stopped, and though the
primary goes bad while its copy is abreast of it. -/
theorem endures_nextClientSessionId {last : Int} {s : Slot} (h : KeepsCount last s.pair) :
    Endures parseCount Pair.abreast (KeepsCount last) s nextClientSessionId
      fun t r => ∃ n, r = .ok n ∧ last ≤ n ∧ 2 ≤ n ∧ KeepsCount n t.pair ∧
        t.whole parseCount = true := by
  have hstable := KeepsCount.stable last
  have hread : Endures parseCount Pair.abreast (KeepsCount last) s (readWithBackup parseCount)
      fun _ r => ∃ n copied, r = .ok (some n, copied) ∧ 1 ≤ n ∧ last ≤ n + 1 := by
    refine (endures_readWithBackup hstable h KeepsCount.copy).mono (fun _ hp => hp) ?_
    rintro t r ht (⟨-, n, hn, rfl⟩ | ⟨hbad, n, hn, rfl⟩)
    · have := ht.primary n (parses_number hn)
      exact ⟨n, false, rfl, this.1, by omega⟩
    · obtain ⟨m, hm, hpos, hlast⟩ := ht.backup
      obtain rfl : m = n := by
        rw [hm] at hn
        exact Option.some.inj hn
      exact ⟨m, true, rfl, hpos, hlast hbad⟩
  refine hread.bind (fun _ _ _ hq => ?_) ?_
  · obtain ⟨n, copied, hr, -⟩ := hq
    cases hr
  rintro t _ ht ⟨n, copied, hr, hone, hlast⟩
  obtain rfl := Except.ok.inj hr
  refine (endures_writeOrLog (E := KeepsCount (n + 1)) hstable (KeepsCount.stable _) ht
    (KeepsCount.mono hlast) KeepsCount.copy ⟨n + 1, rfl⟩ KeepsCount.copied
    (fun p doc m hp hdoc hm => ?_) fun p hp _ => ?_).bind (fun _ _ _ hq => ?_) ?_
  · have hnum : Contents.text doc = .text (.number m) := parses_number hm
    rw [hnum]
    exact KeepsCount.written (by omega) (hp.primary m (hdoc.trans hnum)).1
  · obtain ⟨m, hm, hpos, -⟩ := hp.backup
    rw [hm]
    exact KeepsCount.written (by omega) hpos
  · cases hq.1
  · rintro u _ hu ⟨-, hnew, hwhole⟩
    exact ⟨hu, n + 1, rfl, hlast, by omega, hnew, hwhole⟩

end Telemax.MaxClient
