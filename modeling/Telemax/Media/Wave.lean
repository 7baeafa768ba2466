import Mathlib.Algebra.Order.Floor.Ring
import Mathlib.Data.List.Forall2
import Mathlib.Data.Nat.Cast.Order.Field
import Mathlib.Data.Rat.Floor
import Mathlib.Tactic.Linarith

/-!
# Telemax.Media.Wave

The waveform of a voice message or a circle: PCM comes in pieces of any size, is
measured one recorder read at a time, and a tick takes the loudest read since
the last one.

How loud a read is, and the decibel curve, are what a `Measure` says; the rest
is exact.
-/

namespace Telemax.Media.Wave

def WAVE_BARS : Nat := 80

def TICK_MS : Nat := 75

def CHUNK_MS : Nat := 20

def FULL_SCALE : Nat := 32768

def MAX_SCALE : ℚ := 2

def WAVE_MAX : Nat := 127

/-- `_amplitude` of one read and `_tick_value`, on the scale of a sample. -/
structure Measure where
  amplitude : List Int → Nat
  tickValue : Nat → Nat
  amplitude_le : ∀ read, amplitude read ≤ FULL_SCALE
  tickValue_le : ∀ a ≤ FULL_SCALE, tickValue a ≤ FULL_SCALE

/-- A circle's amplitude, and a tick value that is straight between the two ends of the decibel
curve. -/
def Measure.circle : Measure where
  amplitude read := min FULL_SCALE ((read.map Int.natAbs).foldl max 0)
  tickValue := id
  amplitude_le _ := Nat.min_le_left ..
  tickValue_le _ := id

structure WaveBuilder where
  chunk : Nat
  step : Nat
  chunk_pos : 0 < chunk
  step_pos : 0 < step
  buffer : List Int := []
  values : List Nat := []
  /-- Samples measured overall, against which ticks fire. -/
  total : Nat := 0
  nextTick : Nat := step
  /-- The running maximum a tick reads and clears. -/
  loudest : Nat := 0

namespace WaveBuilder

def init (rate : Nat) : WaveBuilder where
  chunk := max 1 (rate * CHUNK_MS / 1000)
  step := max 1 (rate * TICK_MS / 1000)
  chunk_pos := Nat.lt_of_lt_of_le Nat.zero_lt_one (Nat.le_max_left ..)
  step_pos := Nat.lt_of_lt_of_le Nat.zero_lt_one (Nat.le_max_left ..)

variable (m : Measure)

/-- Every tick that is due fires. -/
def ticks (b : WaveBuilder) : WaveBuilder :=
  if b.nextTick ≤ b.total then
    ticks { b with
      values := b.values ++ [m.tickValue b.loudest]
      loudest := 0
      nextTick := b.nextTick + b.step }
  else b
termination_by b.total + 1 - b.nextTick
decreasing_by
  have := b.step_pos
  simp_wf
  omega

/-- One recorder read. -/
def read (b : WaveBuilder) : WaveBuilder :=
  ticks m { b with
    buffer := b.buffer.drop b.chunk
    loudest := max b.loudest (m.amplitude (b.buffer.take b.chunk))
    total := b.total + b.chunk }

@[simp] theorem ticks_buffer (b : WaveBuilder) : (ticks m b).buffer = b.buffer := by
  fun_induction ticks m b with
  | case1 b hdue ih => exact ih
  | case2 b hdue => rfl

@[simp] theorem ticks_chunk (b : WaveBuilder) : (ticks m b).chunk = b.chunk := by
  fun_induction ticks m b with
  | case1 b hdue ih => exact ih
  | case2 b hdue => rfl

@[simp] theorem ticks_step (b : WaveBuilder) : (ticks m b).step = b.step := by
  fun_induction ticks m b with
  | case1 b hdue ih => exact ih
  | case2 b hdue => rfl

/-- Every whole read is taken, and the remainder kept. -/
def measure (b : WaveBuilder) : WaveBuilder :=
  if b.chunk ≤ b.buffer.length then measure (b.read m) else b
termination_by b.buffer.length
decreasing_by
  have := b.chunk_pos
  simp only [read, ticks_buffer, List.length_drop]
  omega

def feed (b : WaveBuilder) (samples : List Int) : WaveBuilder :=
  measure m { b with buffer := b.buffer ++ samples }

end WaveBuilder

/-! ## from ticks to bars -/

/-- `int()`: towards zero. -/
def toInt (q : ℚ) : Int := if 0 ≤ q then ⌊q⌋ else ⌈q⌉

/-- `_raw_wave`; the values are not empty. -/
def rawWave (values : List Nat) : List Nat :=
  let peak := values.foldl max 0
  let scale : ℚ := if peak ≠ 0 then min MAX_SCALE (FULL_SCALE / peak) else MAX_SCALE
  values.map fun v : Nat => min WAVE_MAX (toInt ((v : ℚ) * scale / 256)).toNat

/-- A bar of `_resample`: the bounds are checked against the last index. -/
def bar (count : Nat) (src : List Nat) (j : Nat) : Nat :=
  let at_ (i : Nat) : Nat := src.getD i 0
  if j = 0 ∨ src.length = 1 then at_ 0
  else if j = count - 1 then at_ (src.length - 1)
  else
    let x : ℚ := j / count * (src.length - 1 : Nat)
    let low := (toInt x).toNat
    let high := low + 1
    if low ≥ src.length - 1 ∨ high ≥ src.length - 1 then 0
    else ((toInt (at_ low + (x - low) * ((at_ high : ℚ) - at_ low))) % 256).toNat

def resample (count : Nat) (src : List Nat) : List Nat :=
  if src = [] then src else (List.range count).map (bar count src)

def WaveBuilder.finish (m : Measure) (b : WaveBuilder) : Option (List Nat) :=
  let values := if b.loudest ≠ 0 then b.values ++ [m.tickValue b.loudest] else b.values
  if values = [] then none else some (resample WAVE_BARS (rawWave values))

/-! ## however it was cut -/

namespace WaveBuilder

variable (m : Measure)

/-- More sound waits behind what is there: it does not matter to the ticks. -/
theorem ticks_append (b : WaveBuilder) (rest : List Int) :
    ticks m { b with buffer := b.buffer ++ rest } =
      { ticks m b with buffer := (ticks m b).buffer ++ rest } := by
  fun_induction ticks m b with
  | case1 b hdue ih =>
      rw [ticks, if_pos hdue]
      exact ih
  | case2 b hdue => rw [ticks, if_neg hdue]

/-- A whole read is the same whatever comes after it. -/
theorem read_append {b : WaveBuilder} (h : b.chunk ≤ b.buffer.length) (rest : List Int) :
    read m { b with buffer := b.buffer ++ rest } =
      { read m b with buffer := (read m b).buffer ++ rest } := by
  simp only [read, List.take_append_of_le_length h, List.drop_append_of_le_length h]
  exact ticks_append m
    { b with
      buffer := b.buffer.drop b.chunk
      loudest := max b.loudest (m.amplitude (b.buffer.take b.chunk))
      total := b.total + b.chunk } rest

/-- What could be measured before may as well be measured with what comes after it. -/
theorem measure_append (b : WaveBuilder) (rest : List Int) :
    measure m { measure m b with buffer := (measure m b).buffer ++ rest } =
      measure m { b with buffer := b.buffer ++ rest } := by
  fun_induction measure m b with
  | case1 b hwhole ih =>
      rw [ih]
      conv_rhs => rw [measure]
      have hlonger : b.chunk ≤ (b.buffer ++ rest).length := by
        rw [List.length_append]
        omega
      rw [if_pos hlonger, read_append m hwhole]
  | case2 b hwhole => rfl

/-- **Feeding two pieces is feeding them as one.** -/
theorem feed_append (b : WaveBuilder) (xs ys : List Int) :
    (b.feed m xs).feed m ys = b.feed m (xs ++ ys) := by
  rw [feed, feed, measure_append, feed, List.append_assoc]

/-- However the sound was cut. -/
theorem foldl_feed (b : WaveBuilder) (xs : List Int) (pieces : List (List Int)) :
    pieces.foldl (feed m) (b.feed m xs) = b.feed m (xs ++ pieces.flatten) := by
  induction pieces generalizing xs with
  | nil => simp
  | cons ys pieces ih => rw [List.foldl_cons, feed_append, ih, List.flatten_cons, List.append_assoc]

end WaveBuilder

/-! ## which read is counted where -/

theorem foldl_max_le {values : List Nat} {bound start : Nat} (hstart : start ≤ bound)
    (h : ∀ v ∈ values, v ≤ bound) : values.foldl max start ≤ bound := by
  induction values generalizing start with
  | nil => exact hstart
  | cons v values ih =>
      exact ih (Nat.max_le.mpr ⟨hstart, h v (.head _)⟩) fun w hw => h w (.tail _ hw)

namespace Measure

variable (m : Measure)

def loudest (reads : List (List Int)) : Nat := (reads.map m.amplitude).foldl max 0

/-- The value a tick takes for the reads since the last one. -/
def tick (reads : List (List Int)) : Nat := m.tickValue (m.loudest reads)

@[simp] theorem loudest_nil : m.loudest [] = 0 := rfl

theorem loudest_concat (reads : List (List Int)) (r : List Int) :
    m.loudest (reads ++ [r]) = max (m.loudest reads) (m.amplitude r) := by
  simp [loudest]

theorem loudest_le (reads : List (List Int)) : m.loudest reads ≤ FULL_SCALE := by
  refine foldl_max_le (Nat.zero_le _) fun v hv => ?_
  obtain ⟨r, -, rfl⟩ := List.mem_map.mp hv
  exact m.amplitude_le r

theorem tick_le (reads : List (List Int)) : m.tick reads ≤ FULL_SCALE :=
  m.tickValue_le _ (m.loudest_le reads)

end Measure

/-- The reads of a sound, tick by tick, and those after the last tick. -/
structure Account where
  groups : List (List (List Int)) := []
  tail : List (List Int) := []

namespace Account

def reads (a : Account) : List (List Int) := a.groups.flatten ++ a.tail

/-- After how many reads a tick has fired. -/
def firedOn (a : Account) (k : Nat) : Nat := (a.groups.take k).flatten.length

/-- The bars before they are resampled: one for each tick, and one for a loud tail. -/
def bars (m : Measure) (a : Account) : List Nat :=
  (a.groups ++ if m.loudest a.tail ≠ 0 then [a.tail] else []).map m.tick

end Account

/-- The builder has measured this much of the sound. -/
structure Counting (m : Measure) (b : WaveBuilder) (pcm : List Int) (a : Account) : Prop where
  whole : a.reads.flatten ++ b.buffer = pcm
  size : ∀ r ∈ a.reads, r.length = b.chunk
  values : b.values = a.groups.map m.tick
  loudest : b.loudest = m.loudest a.tail
  total : b.total = a.reads.length * b.chunk
  nextTick : b.nextTick = (a.groups.length + 1) * b.step
  /-- A tick fires on the first read that brings the total so far. -/
  fires : ∀ k, 0 < k → k ≤ a.groups.length → ∀ n, k * b.step ≤ n * b.chunk ↔ a.firedOn k ≤ n
  before : ∀ n < a.reads.length, n * b.chunk < b.nextTick

/-- … and nothing is left to be measured. -/
structure Counted (m : Measure) (b : WaveBuilder) (pcm : List Int) (a : Account) : Prop
    extends Counting m b pcm a where
  due : b.total < b.nextTick
  rest : b.buffer.length < b.chunk

section

variable {m : Measure} {b : WaveBuilder} {pcm : List Int} {a : Account}

/-- A tick closes the group of reads since the last one. -/
theorem Counting.tick (h : Counting m b pcm a) (hdue : b.nextTick ≤ b.total) :
    Counting m { b with
      values := b.values ++ [m.tickValue b.loudest]
      loudest := 0
      nextTick := b.nextTick + b.step } pcm ⟨a.groups ++ [a.tail], []⟩ := by
  have hreads : Account.reads ⟨a.groups ++ [a.tail], []⟩ = a.reads := by
    simp [Account.reads]
  have hstep := b.step_pos
  refine ⟨?_, ?_, ?_, rfl, ?_, ?_, fun k hk hle n => ?_, fun n hn => ?_⟩
  · rw [hreads]
    exact h.whole
  · rw [hreads]
    exact h.size
  · simp [h.values, h.loudest, Measure.tick]
  · rw [hreads]
    exact h.total
  · rw [List.length_append, List.length_singleton]
    change b.nextTick + b.step = (a.groups.length + 1 + 1) * b.step
    rw [h.nextTick]
    exact (Nat.succ_mul _ _).symm
  · rw [List.length_append, List.length_singleton] at hle
    rcases Nat.lt_or_eq_of_le hle with hlt | rfl
    · have hle' : k ≤ a.groups.length := Nat.lt_succ_iff.mp hlt
      have hfired : Account.firedOn ⟨a.groups ++ [a.tail], []⟩ k = a.firedOn k := by
        rw [Account.firedOn, List.take_append_of_le_length hle', Account.firedOn]
      rw [hfired]
      exact h.fires k hk hle' n
    · have hfired : Account.firedOn ⟨a.groups ++ [a.tail], []⟩ (a.groups.length + 1) =
          a.reads.length := by
        rw [Account.firedOn, List.take_of_length_le (by simp), List.flatten_append,
          List.flatten_singleton, Account.reads]
      rw [hfired]
      change (a.groups.length + 1) * b.step ≤ n * b.chunk ↔ a.reads.length ≤ n
      rw [← h.nextTick]
      constructor
      · intro hn
        by_contra hlt
        exact absurd (h.before n (Nat.lt_of_not_le hlt)) (Nat.not_lt.mpr hn)
      · intro hn
        calc b.nextTick ≤ b.total := hdue
          _ = a.reads.length * b.chunk := h.total
          _ ≤ n * b.chunk := Nat.mul_le_mul_right _ hn
  · rw [hreads] at hn
    exact Nat.lt_of_lt_of_le (h.before n hn) (Nat.le_add_right ..)

theorem Counting.ticks (h : Counting m b pcm a) :
    ∃ a', Counting m (b.ticks m) pcm a' ∧ (b.ticks m).total < (b.ticks m).nextTick := by
  fun_induction WaveBuilder.ticks m b generalizing a with
  | case1 b hdue ih => exact ih (h.tick hdue)
  | case2 b hdue => exact ⟨a, h, Nat.lt_of_not_le hdue⟩

/-- A whole read is counted. -/
theorem Counting.read (h : Counting m b pcm a) (hdue : b.total < b.nextTick)
    (hwhole : b.chunk ≤ b.buffer.length) :
    ∃ a', Counting m (b.read m) pcm a' ∧ (b.read m).total < (b.read m).nextTick := by
  let r := b.buffer.take b.chunk
  have hreads : Account.reads ⟨a.groups, a.tail ++ [r]⟩ = a.reads ++ [r] := by
    simp [Account.reads]
  have hcounting : Counting m { b with
      buffer := b.buffer.drop b.chunk
      loudest := max b.loudest (m.amplitude r)
      total := b.total + b.chunk } pcm ⟨a.groups, a.tail ++ [r]⟩ := by
    refine ⟨?_, fun x hx => ?_, h.values, ?_, ?_, h.nextTick, h.fires, fun n hn => ?_⟩
    · rw [hreads, List.flatten_append, List.flatten_singleton, List.append_assoc]
      change a.reads.flatten ++ (b.buffer.take b.chunk ++ b.buffer.drop b.chunk) = pcm
      rw [List.take_append_drop]
      exact h.whole
    · rw [hreads] at hx
      rcases List.mem_append.mp hx with hx | hx
      · exact h.size x hx
      · obtain rfl := List.mem_singleton.mp hx
        exact List.length_take_of_le hwhole
    · rw [Measure.loudest_concat, ← h.loudest]
    · rw [hreads, List.length_append, List.length_singleton, Nat.succ_mul]
      exact congrArg (· + b.chunk) h.total
    · rw [hreads, List.length_append, List.length_singleton] at hn
      rcases Nat.lt_or_eq_of_le (Nat.lt_succ_iff.mp hn) with hlt | rfl
      · exact h.before n hlt
      · exact h.total ▸ hdue
  exact hcounting.ticks

theorem Counting.measure (h : Counting m b pcm a) (hdue : b.total < b.nextTick) :
    ∃ a', Counted m (b.measure m) pcm a' := by
  fun_induction WaveBuilder.measure m b generalizing a with
  | case1 b hwhole ih =>
      obtain ⟨a', ha', hdue'⟩ := h.read hdue hwhole
      exact ih ha' hdue'
  | case2 b hwhole => exact ⟨a, h, hdue, Nat.lt_of_not_le hwhole⟩

theorem counting_init (rate : Nat) (pcm : List Int) :
    Counting m { WaveBuilder.init rate with buffer := pcm } pcm {} where
  whole := rfl
  size := nofun
  values := rfl
  loudest := rfl
  total := (Nat.zero_mul _).symm
  nextTick := (Nat.one_mul _).symm
  fires := fun _ hk hle => absurd hk (Nat.not_lt.mpr hle)
  before := nofun

/-- Every read of a sound is accounted for. -/
theorem counted_feed (m : Measure) (rate : Nat) (pcm : List Int) :
    ∃ a, Counted m ((WaveBuilder.init rate).feed m pcm) pcm a :=
  (counting_init rate pcm).measure (WaveBuilder.init rate).step_pos

end

/-! ## what a bar can be -/

theorem rawWave_le {values : List Nat} : ∀ v ∈ rawWave values, v ≤ WAVE_MAX := by
  intro v hv
  obtain ⟨_, -, rfl⟩ := List.mem_map.mp hv
  exact Nat.min_le_left ..

/-- The scale is never under one. -/
theorem le_rawWave {values : List Nat} (h : ∀ v ∈ values, v ≤ FULL_SCALE) :
    List.Forall₂ (fun v w => min WAVE_MAX (v / 256) ≤ w) values (rawWave values) := by
  have hpeak : ((values.foldl max 0 : Nat) : ℚ) ≤ FULL_SCALE := by
    exact_mod_cast foldl_max_le (Nat.zero_le _) h
  simp only [rawWave, List.forall₂_map_right_iff, List.forall₂_same]
  generalize values.foldl max 0 = peak at hpeak
  have hscale : (1 : ℚ) ≤ if peak ≠ 0 then min MAX_SCALE (FULL_SCALE / peak) else MAX_SCALE := by
    split
    · next hne =>
        refine le_min (by norm_num [MAX_SCALE]) ?_
        rwa [one_le_div (by exact_mod_cast Nat.pos_of_ne_zero hne)]
    · norm_num [MAX_SCALE]
  generalize (if peak ≠ 0 then min MAX_SCALE (FULL_SCALE / peak) else MAX_SCALE : ℚ) = scale
    at hscale
  intro v _
  have hv : ((v / 256 : Nat) : ℚ) ≤ v * scale / 256 :=
    calc ((v / 256 : Nat) : ℚ) ≤ v / (256 : Nat) := Nat.cast_div_le
      _ ≤ v * scale / 256 := by
        push_cast
        gcongr
        exact le_mul_of_one_le_right (Nat.cast_nonneg v) hscale
  refine min_le_min_left _ ?_
  rw [toInt, if_pos (by positivity)]
  have hfloor : ((v / 256 : Nat) : Int) ≤ ⌊(v : ℚ) * scale / 256⌋ :=
    Int.le_floor.mpr (by exact_mod_cast hv)
  omega

/-- **No bar is quieter than its tick.** -/
theorem Account.le_rawWave (m : Measure) (a : Account) :
    List.Forall₂ (fun v w => min WAVE_MAX (v / 256) ≤ w) (a.bars m) (rawWave (a.bars m)) := by
  refine Wave.le_rawWave fun v hv => ?_
  obtain ⟨reads, -, rfl⟩ := List.mem_map.mp hv
  exact m.tick_le reads

theorem getD_le {src : List Nat} {bound : Nat} (h : ∀ v ∈ src, v ≤ bound) (i : Nat) :
    src.getD i 0 ≤ bound := by
  rw [List.getD_eq_getElem?_getD]
  cases hi : src[i]? with
  | none => exact Nat.zero_le _
  | some v => exact h v (List.mem_of_getElem? hi)

theorem toInt_nonneg {q : ℚ} (h : 0 ≤ q) : 0 ≤ toInt q := by
  rw [toInt, if_pos h]
  exact Int.floor_nonneg.mpr h

theorem toInt_le {q : ℚ} (h : 0 ≤ q) {n : Nat} (hle : q ≤ n) : toInt q ≤ n := by
  rw [toInt, if_pos h]
  exact_mod_cast (Int.floor_le q).trans hle

/-- Between two bars there is nothing above both. -/
theorem interpolated_le {low high : Nat} {bound : Nat} (hlow : low ≤ bound) (hhigh : high ≤ bound)
    {t : ℚ} (h0 : 0 ≤ t) (h1 : t ≤ 1) :
    0 ≤ (low : ℚ) + t * (high - low) ∧ (low : ℚ) + t * (high - low) ≤ bound := by
  have hmix : (low : ℚ) + t * (high - low) = (1 - t) * low + t * high := by ring
  have hlow' : (low : ℚ) ≤ bound := by exact_mod_cast hlow
  have hhigh' : (high : ℚ) ≤ bound := by exact_mod_cast hhigh
  have hrest : 0 ≤ 1 - t := by linarith
  rw [hmix]
  constructor
  · positivity
  · calc (1 - t) * low + t * high ≤ (1 - t) * bound + t * bound :=
        add_le_add (mul_le_mul_of_nonneg_left hlow' hrest) (mul_le_mul_of_nonneg_left hhigh' h0)
      _ = bound := by ring

theorem bar_le {src : List Nat} (h : ∀ v ∈ src, v ≤ WAVE_MAX) (count j : Nat) :
    bar count src j ≤ WAVE_MAX := by
  unfold bar
  dsimp only
  split
  · exact getD_le h 0
  · split
    · exact getD_le h _
    · split
      · exact Nat.zero_le _
      · have hx : (0 : ℚ) ≤ j / count * (src.length - 1 : Nat) := by positivity
        generalize (j : ℚ) / count * (src.length - 1 : Nat) = x at hx
        have hfloor : ((toInt x).toNat : ℚ) = ⌊x⌋ := by
          have hnonneg := toInt_nonneg hx
          rw [toInt, if_pos hx] at hnonneg ⊢
          exact_mod_cast Int.toNat_of_nonneg hnonneg
        obtain ⟨hnonneg, hle⟩ := interpolated_le (getD_le h (toInt x).toNat)
          (getD_le h ((toInt x).toNat + 1)) (t := x - (toInt x).toNat)
          (by rw [hfloor]; linarith [Int.floor_le x])
          (by rw [hfloor]; linarith [Int.lt_floor_add_one x])
        have hint := toInt_le hnonneg hle
        have hint0 := toInt_nonneg hnonneg
        rw [Int.emod_eq_of_lt hint0 (by have : WAVE_MAX = 127 := rfl; omega)]
        omega

theorem resample_le {src : List Nat} (h : ∀ v ∈ src, v ≤ WAVE_MAX) (count : Nat) :
    ∀ v ∈ resample count src, v ≤ WAVE_MAX := by
  intro v hv
  unfold resample at hv
  split at hv
  · exact h v hv
  · obtain ⟨j, -, rfl⟩ := List.mem_map.mp hv
    exact bar_le h count j

theorem length_resample {src : List Nat} (h : src ≠ []) (count : Nat) :
    (resample count src).length = count := by
  rw [resample, if_neg h, List.length_map, List.length_range]

theorem resample_singleton (count v : Nat) : resample count [v] = List.replicate count v := by
  rw [resample, if_neg (by simp)]
  refine List.eq_replicate_iff.mpr ⟨by simp, fun w hw => ?_⟩
  obtain ⟨j, -, rfl⟩ := List.mem_map.mp hw
  exact if_pos (.inr rfl)

/-! ## the waveform of a sound -/

theorem Counted.finish {m : Measure} {b : WaveBuilder} {pcm : List Int} {a : Account}
    (h : Counted m b pcm a) :
    b.finish m = if a.bars m = [] then none else some (resample WAVE_BARS (rawWave (a.bars m))) := by
  have hbars : (if b.loudest ≠ 0 then b.values ++ [m.tickValue b.loudest] else b.values) =
      a.bars m := by
    rw [h.values, h.loudest, Account.bars]
    split
    · rw [List.map_append]
      rfl
    · rw [List.append_nil]
  rw [WaveBuilder.finish]
  simp only [hbars]

theorem Account.bars_eq_nil_iff {m : Measure} {a : Account} :
    a.bars m = [] ↔ a.groups = [] ∧ m.loudest a.tail = 0 := by
  rw [Account.bars, List.map_eq_nil_iff, List.append_eq_nil_iff]
  refine and_congr_right fun _ => ?_
  by_cases hloud : m.loudest a.tail = 0 <;> simp [hloud]

/-- **The waveform depends on the sound, not on how it was cut**: whatever the pieces, the result
is that of one feed of the whole; every read of the sound is counted in exactly one bar, the one
of the first tick that fires after it, or of a loud tail; without a tick and with a silent tail
there is no waveform, and otherwise it has the bars that are to be there, seven bits each. -/
theorem wave_of_sound (m : Measure) (rate : Nat) (pieces : List (List Int)) :
    (pieces.foldl (WaveBuilder.feed m) (WaveBuilder.init rate)).finish m =
        ((WaveBuilder.init rate).feed m pieces.flatten).finish m ∧
      ∃ a, Counted m (pieces.foldl (WaveBuilder.feed m) (WaveBuilder.init rate)) pieces.flatten a ∧
        ((pieces.foldl (WaveBuilder.feed m) (WaveBuilder.init rate)).finish m = none ↔
          a.groups = [] ∧ m.loudest a.tail = 0) ∧
        ∀ wave, (pieces.foldl (WaveBuilder.feed m) (WaveBuilder.init rate)).finish m = some wave →
          wave = resample WAVE_BARS (rawWave (a.bars m)) ∧ wave.length = WAVE_BARS ∧
            ∀ v ∈ wave, v ≤ WAVE_MAX := by
  have hwhole : pieces.foldl (WaveBuilder.feed m) (WaveBuilder.init rate) =
      (WaveBuilder.init rate).feed m pieces.flatten := by
    have hnone : WaveBuilder.init rate = (WaveBuilder.init rate).feed m [] := by
      rw [WaveBuilder.feed, WaveBuilder.measure, if_neg]
      · rfl
      · exact Nat.not_le.mpr (WaveBuilder.init rate).chunk_pos
    conv_lhs => rw [hnone]
    exact WaveBuilder.foldl_feed m (WaveBuilder.init rate) [] pieces
  obtain ⟨a, ha⟩ := counted_feed m rate pieces.flatten
  rw [hwhole]
  refine ⟨rfl, a, ha, ?_, fun wave hwave => ?_⟩
  · rw [ha.finish, ← Account.bars_eq_nil_iff]
    split <;> simp [*]
  · rw [ha.finish] at hwave
    split at hwave
    · cases hwave
    · next hsome =>
        obtain rfl := Option.some.inj hwave
        have hraw : rawWave (a.bars m) ≠ [] := by
          rw [rawWave, ne_eq, List.map_eq_nil_iff]
          exact hsome
        exact ⟨rfl, length_resample hraw _, resample_le rawWave_le _⟩

/-- One sample at full scale, and silence up to the first tick. -/
theorem wave_of_burst :
    ([[-32768], [], [0, 0]].foldl (WaveBuilder.feed .circle) (WaveBuilder.init 40)).finish .circle =
      some (List.replicate WAVE_BARS WAVE_MAX) := by
  rw [(wave_of_sound .circle 40 [[-32768], [], [0, 0]]).1]
  have hraw : rawWave [FULL_SCALE] = [WAVE_MAX] := by
    simp [rawWave, FULL_SCALE, MAX_SCALE, toInt, WAVE_MAX]
    norm_num
  have hfed : (WaveBuilder.init 40).feed .circle [-32768, 0, 0] =
      { WaveBuilder.init 40 with values := [FULL_SCALE], total := 3, nextTick := 6 } := by
    simp [WaveBuilder.feed, WaveBuilder.init, WaveBuilder.measure, WaveBuilder.read,
      WaveBuilder.ticks, CHUNK_MS, TICK_MS, Measure.circle, FULL_SCALE]
  calc WaveBuilder.finish .circle ((WaveBuilder.init 40).feed .circle [-32768, 0, 0])
      = some (resample WAVE_BARS (rawWave [FULL_SCALE])) := by rw [hfed]; rfl
    _ = some (List.replicate WAVE_BARS WAVE_MAX) := by rw [hraw, resample_singleton]

end Telemax.Media.Wave
