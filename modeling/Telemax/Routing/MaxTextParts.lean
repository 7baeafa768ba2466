import Telemax.Routing.TextChunks

/-!
# Telemax.Routing.MaxTextParts

`split_max_text` under any limit.  `window` is the longest beginning that fits
(`window_fits`, `length_le_window`), a break falls in its latter half
(`preferredBreak_mem`), and so every turn of the loop takes a piece that is neither
empty nor over the limit, and leaves the rest of the text.
-/

namespace Telemax

/-- The UTF-16 code units of a character: a supplementary one is a surrogate pair. -/
def utf16 (c : Char) : List Nat :=
  if c.toNat > 0xFFFF then
    [0xD800 + (c.toNat - 0x10000) / 0x400, 0xDC00 + (c.toNat - 0x10000) % 0x400]
  else [c.toNat]

def lowSurrogate (unit : Nat) : Bool := 0xDC00 ≤ unit && unit ≤ 0xDFFF

/-- `text.encode("utf-16-le")`. -/
def encodeUtf16 (text : String) : List Nat := text.toList.flatMap utf16

/-- What `split_max_text` raises. -/
inductive SplitError
  | limitTooSmall
  | cannotFit
  deriving DecidableEq, Repr

def SplitError.text : SplitError → String
  | .limitTooSmall => "the MAX text limit must fit one supplementary character"
  | .cannotFit => "the MAX text limit cannot fit the next character"

/-- Where a piece ends that is cut from what fits. -/
def splitAt (fits : List Char) : Nat :=
  let split := preferredBreak fits (fits.length / 2)
  if split = 0 then fits.length else split

theorem splitAt_pos {fits : List Char} (h : fits ≠ []) : 0 < splitAt fits := by
  unfold splitAt
  dsimp only
  split
  · exact List.length_pos_iff.mpr h
  · next hsplit => exact Nat.pos_of_ne_zero hsplit

/-- The loop of `split_max_text` from the text that is left. -/
def splitFrom (limit : Nat) (text : List Char) : Except SplitError (List (List Char)) :=
  if text = [] then .ok []
  else
    let fits := window limit text
    if fits.length = text.length then .ok [text]
    else if _ : fits = [] then .error .cannotFit
    else do
      let rest ← splitFrom limit (text.drop (splitAt fits))
      return fits.take (splitAt fits) :: rest
termination_by text.length
decreasing_by
  have hpos : 0 < splitAt (window limit text) := splitAt_pos (by assumption)
  rw [List.length_drop]
  have hlen : 0 < text.length := List.length_pos_iff.mpr ‹_›
  omega

/-- `split_max_text(text, limit=limit)`. -/
def splitTextWithin (limit : Nat) (text : String) : Except SplitError (List String) :=
  if limit < 2 then .error .limitTooSmall
  else if text = "" || utf16Units text ≤ limit then .ok [text]
  else do
    let chunks ← splitFrom limit text.toList
    return chunks.map String.ofList

/-! ## characters and their units -/

theorem length_utf16 (c : Char) : (utf16 c).length = charUnits c := by
  unfold utf16 charUnits
  split <;> rfl

/-- `utf16_units` counts the units of the encoded text. -/
theorem length_encodeUtf16 (text : String) : (encodeUtf16 text).length = utf16Units text := by
  simp only [encodeUtf16, utf16Units, List.length_flatMap, length_utf16]

theorem charUnits_le (c : Char) : charUnits c ≤ 2 := by
  unfold charUnits
  split <;> decide

/-- No character begins with a low surrogate. -/
theorem head_utf16 (c : Char) : ∃ unit rest, utf16 c = unit :: rest ∧ lowSurrogate unit = false := by
  have hvalid : c.toNat < 0xD800 ∨ 0xDFFF < c.toNat ∧ c.toNat < 0x110000 := c.valid
  unfold utf16
  split
  · refine ⟨_, _, rfl, ?_⟩
    have hdiv : (c.toNat - 0x10000) / 0x400 < 0x400 := by
      rcases hvalid with hlow | hhigh <;> omega
    simp only [lowSurrogate, Bool.and_eq_false_iff, decide_eq_false_iff_not]
    omega
  · refine ⟨_, _, rfl, ?_⟩
    simp only [lowSurrogate, Bool.and_eq_false_iff, decide_eq_false_iff_not]
    omega

/-! ## what fits -/

/-- The units of some characters. -/
def units (text : List Char) : Nat := (text.map charUnits).sum

theorem window_prefix (room : Nat) (text : List Char) : window room text <+: text := by
  induction text generalizing room with
  | nil => exact List.nil_prefix
  | cons c cs ih =>
      unfold window
      split
      · exact (List.prefix_cons_inj c).mpr (ih _)
      · exact List.nil_prefix

theorem window_fits (room : Nat) (text : List Char) : units (window room text) ≤ room := by
  induction text generalizing room with
  | nil => exact Nat.zero_le room
  | cons c cs ih =>
      unfold window
      split
      · next hroom =>
          have := ih (room - charUnits c)
          simp only [units, List.map_cons, List.sum_cons] at this ⊢
          omega
      · exact Nat.zero_le room

/-- No longer beginning fits. -/
theorem length_le_window {room : Nat} {text other : List Char} (hbegin : other <+: text)
    (hfits : units other ≤ room) : other.length ≤ (window room text).length := by
  induction text generalizing room other with
  | nil => simp [List.prefix_nil.mp hbegin]
  | cons c cs ih =>
      cases other with
      | nil => exact Nat.zero_le _
      | cons d ds =>
          obtain ⟨rfl, hds⟩ := List.cons_prefix_cons.mp hbegin
          simp only [units, List.map_cons, List.sum_cons] at hfits
          rw [window, if_pos (by omega)]
          exact Nat.succ_le_succ (ih hds (by simp only [units]; omega))

/-- Where two characters have room, something fits. -/
theorem window_ne_nil {limit : Nat} (hlimit : 2 ≤ limit) {text : List Char} (hne : text ≠ []) :
    window limit text ≠ [] := by
  cases text with
  | nil => exact absurd rfl hne
  | cons c cs =>
      rw [window, if_pos (Nat.le_trans (charUnits_le c) hlimit)]
      exact List.cons_ne_nil _ _

/-! ## where a piece ends -/

theorem lastFrom_some {p : List Char → Bool} {floor i : Nat} {text : List Char}
    (h : lastFrom p floor text = some i) : floor ≤ i ∧ p (text.drop i) = true := by
  have hp := List.find?_some h
  simpa using hp

/-- A separator ends where it is found, and it is found. -/
theorem drop_of_isPrefixOf {text sep : List Char} {i : Nat}
    (h : sep.isPrefixOf (text.drop i) = true) : i + sep.length ≤ text.length ∨ sep = [] := by
  have hle := (List.isPrefixOf_iff_prefix.mp h).length_le
  rw [List.length_drop] at hle
  cases sep with
  | nil => exact .inr rfl
  | cons c cs =>
      simp only [List.length_cons] at hle ⊢
      omega

/-- A break falls past the floor, and within what fits. -/
theorem preferredBreak_mem (fits : List Char) (floor : Nat) :
    preferredBreak fits floor = 0 ∨
      floor < preferredBreak fits floor ∧ preferredBreak fits floor ≤ fits.length := by
  unfold preferredBreak
  split
  · next paragraph hfound =>
      obtain ⟨hfloor, hsep⟩ := lastFrom_some hfound
      have hlen := (drop_of_isPrefixOf hsep).resolve_right (List.cons_ne_nil _ _)
      simp only [List.length_cons, List.length_nil] at hlen
      omega
  · split
    · next line hfound =>
        obtain ⟨hfloor, hsep⟩ := lastFrom_some hfound
        have hlen := (drop_of_isPrefixOf hsep).resolve_right (List.cons_ne_nil _ _)
        simp only [List.length_cons, List.length_nil] at hlen
        omega
    · split
      · next index hfound =>
          obtain ⟨hfloor, hspace⟩ := lastFrom_some hfound
          have hlt : index < fits.length := by
            by_contra hge
            rw [List.drop_eq_nil_of_le (Nat.le_of_not_lt hge)] at hspace
            cases hspace
          omega
      · exact .inl rfl

theorem splitAt_mem {fits : List Char} (hne : fits ≠ []) :
    fits.length / 2 < splitAt fits ∧ splitAt fits ≤ fits.length := by
  have hpos : 0 < fits.length := List.length_pos_iff.mpr hne
  unfold splitAt
  rcases preferredBreak_mem fits (fits.length / 2) with hzero | ⟨hlow, hhigh⟩
  · rw [if_pos hzero]
    omega
  · rw [if_neg (by omega)]
    exact ⟨hlow, hhigh⟩

/-! ## the loop -/

/-- What is left of a text in pieces: nothing is lost, no piece is empty or over the limit, and
each but the last is more than half of what would have fitted. -/
inductive Pieces (limit : Nat) : List Char → List (List Char) → Prop
  | nil : Pieces limit [] []
  | last {text : List Char} (hne : text ≠ []) (hfits : units text ≤ limit) :
      Pieces limit text [text]
  | cons {piece rest : List Char} {chunks : List (List Char)} (hne : piece ≠ [])
      (hfits : units piece ≤ limit)
      (hhalf : ∀ other, other <+: piece ++ rest → units other ≤ limit →
        other.length / 2 < piece.length)
      (hrest : Pieces limit rest chunks) : Pieces limit (piece ++ rest) (piece :: chunks)

theorem units_mono {text other : List Char} (h : other <+: text) :
    units other ≤ units text := by
  obtain ⟨rest, rfl⟩ := h
  simp [units]

/-- **One turn** takes a piece, and leaves the rest; the loop ends. -/
theorem splitFrom_pieces {limit : Nat} (hlimit : 2 ≤ limit) (text : List Char) :
    ∃ chunks, splitFrom limit text = .ok chunks ∧ Pieces limit text chunks := by
  induction hn : text.length using Nat.strongRecOn generalizing text with
  | ind n ih =>
    rw [splitFrom]
    by_cases hempty : text = []
    · exact ⟨[], if_pos hempty, hempty ▸ .nil⟩
    have hbegin := window_prefix limit text
    have hfits := window_fits limit text
    rw [if_neg hempty]
    dsimp only
    by_cases hall : (window limit text).length = text.length
    · refine ⟨[text], if_pos hall, .last hempty ?_⟩
      rwa [hbegin.eq_of_length hall] at hfits
    have hne := window_ne_nil hlimit hempty
    rw [if_neg hall, dif_neg hne]
    obtain ⟨hlow, hhigh⟩ := splitAt_mem hne
    generalize splitAt (window limit text) = cut at hlow hhigh ⊢
    have hlen : 0 < text.length := List.length_pos_iff.mpr hempty
    obtain ⟨chunks, hchunks, hpieces⟩ :=
      ih (text.drop cut).length (by rw [List.length_drop]; omega) _ rfl
    have hpiece : (window limit text).take cut = text.take cut := by
      rw [List.prefix_iff_eq_take.mp hbegin, List.take_take, Nat.min_eq_left hhigh]
    have hlencut : (text.take cut).length = cut :=
      List.length_take_of_le (Nat.le_trans hhigh hbegin.length_le)
    refine ⟨text.take cut :: chunks, by rw [hchunks, hpiece]; rfl, ?_⟩
    have hcons : Pieces limit (text.take cut ++ text.drop cut) (text.take cut :: chunks) := by
      refine .cons (fun hnil => ?_) ?_ (fun other hother hroom => ?_) hpieces
      · rw [hnil] at hlencut
        simp only [List.length_nil] at hlencut
        omega
      · exact Nat.le_trans (units_mono (hpiece ▸ List.take_prefix _ _)) hfits
      · rw [List.take_append_drop] at hother
        have hmax := length_le_window hother hroom
        omega
    rwa [List.take_append_drop] at hcons

namespace Pieces

variable {limit : Nat} {text : List Char} {chunks : List (List Char)}

theorem flatten_eq (h : Pieces limit text chunks) : chunks.flatten = text := by
  induction h with
  | nil => rfl
  | last hne hfits => simp
  | cons hne hfits hhalf hrest ih => simp [ih]

theorem bounded (h : Pieces limit text chunks) : ∀ piece ∈ chunks, units piece ≤ limit := by
  induction h with
  | nil => exact nofun
  | last hne hfits => simpa using hfits
  | cons hne hfits hhalf hrest ih => simpa using ⟨hfits, ih⟩

theorem nonempty (h : Pieces limit text chunks) : ∀ piece ∈ chunks, piece ≠ [] := by
  induction h with
  | nil => exact nofun
  | last hne hfits => simpa using hne
  | cons hne hfits hhalf hrest ih => simpa using ⟨hne, ih⟩

/-- A piece that is not the last is more than half of what would have fitted where it begins. -/
theorem useful (h : Pieces limit text chunks) {before after : List (List Char)}
    {piece : List Char} (hat : chunks = before ++ piece :: after) (hmore : after ≠ [])
    {other : List Char} (hother : other <+: piece ++ after.flatten) (hroom : units other ≤ limit) :
    other.length / 2 < piece.length := by
  induction h generalizing before with
  | nil => simp at hat
  | last hne hfits =>
      cases before with
      | nil => exact absurd (List.cons.inj hat).2.symm hmore
      | cons b before => simp at hat
  | cons hne hfits hhalf hrest ih =>
      cases before with
      | nil =>
          obtain ⟨rfl, rfl⟩ := List.cons.inj hat
          rw [hrest.flatten_eq] at hother
          exact hhalf other hother hroom
      | cons b before => exact ih (List.cons.inj hat).2

end Pieces

/-! ## the pieces of a text -/

/-- A text in pieces that MAX takes. -/
structure SplitWell (limit : Nat) (text : String) (pieces : List String) : Prop where
  joined : String.join pieces = text
  bounded : ∀ piece ∈ pieces, utf16Units piece ≤ limit
  nonempty : text ≠ "" → ∀ piece ∈ pieces, piece ≠ ""
  /-- No boundary is between the two surrogates of a character. -/
  whole : ∀ before after, pieces = before ++ after → ∀ unit,
    (encodeUtf16 text)[(encodeUtf16 (String.join before)).length]? = some unit →
      lowSurrogate unit = false
  /-- Nothing that fits from where a piece begins is twice as long, if it is not the last. -/
  useful : ∀ before piece after, pieces = before ++ piece :: after → after ≠ [] →
    ∀ other, other <+: (piece ++ String.join after).toList → units other ≤ limit →
      other.length / 2 < piece.length
  single : utf16Units text ≤ limit → pieces = [text]

/-- The units of one text after another. -/
theorem encodeUtf16_join_append (before after : List String) :
    encodeUtf16 (String.join (before ++ after)) =
      encodeUtf16 (String.join before) ++ encodeUtf16 (String.join after) := by
  simp [encodeUtf16]

theorem head_encodeUtf16 {text : String} {unit : Nat} (h : (encodeUtf16 text)[0]? = some unit) :
    lowSurrogate unit = false := by
  unfold encodeUtf16 at h
  cases hlist : text.toList with
  | nil => simp [hlist] at h
  | cons c cs =>
      obtain ⟨first, rest, hutf, hlow⟩ := head_utf16 c
      rw [hlist, List.flatMap_cons, hutf] at h
      obtain rfl := Option.some.inj h
      exact hlow

/-- Whatever the pieces are, their boundaries are between characters. -/
theorem whole_of_joined {text : String} {pieces before after : List String}
    (hjoined : String.join pieces = text) (hat : pieces = before ++ after) {unit : Nat}
    (h : (encodeUtf16 text)[(encodeUtf16 (String.join before)).length]? = some unit) :
    lowSurrogate unit = false := by
  subst hjoined hat
  rw [encodeUtf16_join_append, List.getElem?_append_right (Nat.le_refl _), Nat.sub_self] at h
  exact head_encodeUtf16 h

/-- **`split_max_text` is lossless, bounded and terminating**, under every limit that has room for
a character. -/
theorem splitTextWithin_lossless {limit : Nat} (hlimit : 2 ≤ limit) (text : String) :
    ∃ pieces, splitTextWithin limit text = .ok pieces ∧ SplitWell limit text pieces := by
  unfold splitTextWithin
  rw [if_neg (Nat.not_lt.mpr hlimit)]
  split
  · next hfits =>
      have hroom : utf16Units text ≤ limit := by
        rcases Bool.or_eq_true_iff.mp hfits with hempty | hroom
        · rw [of_decide_eq_true hempty]
          exact Nat.zero_le limit
        · exact of_decide_eq_true hroom
      have hjoined : String.join [text] = text := by simp [String.join]
      refine ⟨[text], rfl, hjoined, by simpa using hroom, by simp,
        fun before after hat unit => whole_of_joined hjoined hat, ?_, fun _ => rfl⟩
      intro before piece after hat hmore
      cases before with
      | nil => exact absurd (List.cons.inj hat).2.symm hmore
      | cons b before => simp at hat
  · next hlong =>
      obtain ⟨chunks, hchunks, hpieces⟩ := splitFrom_pieces hlimit text.toList
      have hjoined : String.join (chunks.map String.ofList) = text := by
        rw [← String.toList_inj]
        simpa [List.flatMap] using hpieces.flatten_eq
      refine ⟨chunks.map String.ofList, by rw [hchunks]; rfl, hjoined, ?_, ?_,
        fun before after hat unit => whole_of_joined hjoined hat, ?_, fun hroom => ?_⟩
      · intro piece hmem
        obtain ⟨chunk, hchunk, rfl⟩ := List.mem_map.mp hmem
        simpa [utf16Units, units] using hpieces.bounded chunk hchunk
      · intro _ piece hmem
        obtain ⟨chunk, hchunk, rfl⟩ := List.mem_map.mp hmem
        simpa using hpieces.nonempty chunk hchunk
      · intro before piece after hat hmore other hother hroom
        obtain ⟨bs, cs, rfl, rfl, hcs⟩ := List.map_eq_append_iff.mp hat
        obtain ⟨c, rest, rfl, rfl, rfl⟩ := List.map_eq_cons_iff.mp hcs
        have hbegin : other <+: c ++ rest.flatten := by
          simpa [List.flatMap] using hother
        simpa using hpieces.useful rfl (by simpa using hmore) hbegin hroom
      · exact absurd (by simp [hroom]) hlong

/-- A break after a space, and a character of two units that does not fit next to another. -/
theorem splitTextWithin_lossless_three :
    ∃ pieces, splitTextWithin 3 "ab 😀c" = .ok pieces ∧ SplitWell 3 "ab 😀c" pieces :=
  splitTextWithin_lossless (by decide) _

/-! ## what is sent to MAX -/

/-- The turns that the length allows are enough for the loop. -/
theorem splitLoop_eq {limit turns : Nat} {text : List Char} {chunks : List (List Char)}
    (hturns : text.length ≤ turns) (h : splitFrom limit text = .ok chunks) :
    splitLoop limit turns text = chunks := by
  induction turns generalizing text chunks with
  | zero =>
      obtain rfl := List.length_eq_zero_iff.mp (Nat.le_zero.mp hturns)
      rw [splitFrom, if_pos rfl] at h
      exact Except.ok.inj h
  | succ turns ih =>
      rw [splitFrom] at h
      rw [splitLoop]
      dsimp only at h ⊢
      split at h
      · next hempty => exact (if_pos hempty).trans (Except.ok.inj h)
      next hempty =>
      rw [if_neg hempty]
      split at h
      · next hall => exact (if_pos hall).trans (Except.ok.inj h)
      next hall =>
      rw [if_neg hall]
      split at h
      · cases h
      next hne =>
      have hpos := splitAt_pos hne
      cases hrest : splitFrom limit (text.drop (splitAt (window limit text))) with
      | error e => simp [hrest, bind, Except.bind] at h
      | ok rest =>
          obtain rfl : (window limit text).take (splitAt (window limit text)) :: rest = chunks := by
            simpa [hrest, bind, Except.bind, pure, Except.pure] using h
          have hlen : (text.drop (splitAt (window limit text))).length ≤ turns := by
            rw [List.length_drop]
            omega
          exact congrArg _ (ih hlen hrest)

/-- The parts of a job are the pieces under the limit of MAX. -/
theorem splitTextWithin_max (text : String) :
    splitTextWithin maxTextUtf16Limit text = .ok (splitMaxText text) := by
  unfold splitTextWithin splitMaxText
  rw [if_neg (by decide)]
  split
  · next hfits =>
      have hroom : utf16Units text ≤ maxTextUtf16Limit := by
        rcases Bool.or_eq_true_iff.mp hfits with hempty | hroom
        · rw [of_decide_eq_true hempty]
          exact Nat.zero_le _
        · exact of_decide_eq_true hroom
      rw [if_pos hroom]
  · next hlong =>
      obtain ⟨chunks, hchunks, -⟩ := splitFrom_pieces (show 2 ≤ maxTextUtf16Limit by decide) text.toList
      rw [if_neg fun hroom => hlong (by simp [hroom]), hchunks,
        splitLoop_eq (Nat.le_of_eq String.length_toList) hchunks]
      rfl

end Telemax
