import Mathlib.Data.List.DropRight
import Telemax.Lib.Trim
import Telemax.Routing.TextChunks

/-!
# Telemax.Media.Names

`sanitize_filename`: the name a delivered document is shown under.  The basename
of what arrived, with what has a meaning to a path, a shell or a terminal
replaced, its ends trimmed, and the middle cut out of a name that is too long.
-/

namespace Telemax.Media.Names

open Trim

def MAX_NAME_LENGTH : Nat := 120

/-- `_UNSAFE`. -/
def isUnsafe (c : Char) : Bool :=
  c.toNat ≤ 0x1F || c.toNat = 0x7F || c ∈ ['/', '\\', ':', '*', '?', '"', '<', '>', '|']

def isDot (c : Char) : Bool := c = '.'

/-- `PurePosixPath(path).name`: empty parts and single dots are not parts. -/
def basename (path : List Char) : List Char :=
  ((path.splitOn '/').filter fun part => part ≠ [] && part ≠ ['.']).getLastD []

/-- What follows the last dot; the whole of a name without one. -/
def afterDot (name : List Char) : List Char := name.rtakeWhile fun c => !isDot c

/-- `PurePosixPath(name).suffix`, of a name without separators: from the last dot
on, unless this is the first letter or the last. -/
def suffix (name : List Char) : List Char :=
  if afterDot name ≠ [] ∧ (afterDot name).length + 1 < name.length then '.' :: afterDot name else []

/-- The basename of a name, its unsafe letters replaced and its ends trimmed. -/
def candidate (name : List Char) : List Char :=
  let slashed := (trim isSpace name).map fun c => if c = '\\' then '/' else c
  let replaced := (basename slashed).map fun c => if isUnsafe c then '_' else c
  trim isDot (trim isSpace replaced)

/-- The middle is cut out, and at most sixteen letters of the extension are kept. -/
def cut (candidate : List Char) : List Char :=
  if candidate.length ≤ MAX_NAME_LENGTH then candidate
  else
    let ending := (suffix candidate).take 16
    let stem := candidate.take (MAX_NAME_LENGTH - ending.length)
    if ending ≠ [] then stem ++ ending else stem

def sanitizeFilename (name : Option String) (fallback : String) : String :=
  match name with
  | none => fallback
  | some name =>
      if name = "" then fallback
      else
        let candidate := candidate name.toList
        if candidate = [] then fallback else String.ofList (cut candidate)

/-! ## what a name is to be -/

/-- A white space or a dot. -/
def isBlank (c : Char) : Bool := isSpace c || isDot c

/-- A name that may be shown, and may be handed to Telegram. -/
structure Safe (name : List Char) : Prop where
  ne_nil : name ≠ []
  length : name.length ≤ MAX_NAME_LENGTH
  letters : ∀ c ∈ name, isUnsafe c = false
  ends : Tight isBlank name

/-- The name that comes out is safe, ends as the name that was cut, and stays itself. -/
structure Cleaned (name : Option String) (fallback : String) : Prop where
  safe : Safe (sanitizeFilename name fallback).toList
  extension : ∀ n, name = some n → MAX_NAME_LENGTH < (candidate n.toList).length →
    (suffix (candidate n.toList)).take 16 <:+ (sanitizeFilename name fallback).toList
  again : ∀ fallback', sanitizeFilename (some (sanitizeFilename name fallback)) fallback' =
    sanitizeFilename name fallback

/-- The letter at which a name ends when it is not too long or has been cut. -/
def lastKept (candidate : List Char) : Option Char :=
  let ending := suffix candidate
  if candidate.length ≤ MAX_NAME_LENGTH then candidate.getLast?
  else if ending = [] then candidate[MAX_NAME_LENGTH - 1]?
  else if ending.length ≤ 16 then candidate.getLast?
  else ending[15]?

/-- Taking the dots off the ends bares no white space, and no cut is made behind one. -/
structure Neat (name : List Char) : Prop where
  front : ∀ c ∈ (candidate name).head?, isSpace c = false
  back : ∀ c ∈ lastKept (candidate name), isSpace c = false

/-! ## the extension -/

variable {name : List Char}

theorem isDot_iff {c : Char} : isDot c = true ↔ c = '.' := by simp [isDot]

theorem not_dot_of_mem_afterDot {c : Char} (h : c ∈ afterDot name) : isDot c = false := by
  simpa using List.mem_rtakeWhile_imp h

/-- A name with a dot in it, read around its last dot. -/
theorem around_last_dot (h : ∃ c ∈ name, isDot c = true) :
    ∃ front, name = front ++ '.' :: afterDot name := by
  have hsplit : name.rdropWhile (fun c => !isDot c) ++ afterDot name = name :=
    List.rdropWhile_append_rtakeWhile
  have hne : name.rdropWhile (fun c => !isDot c) ≠ [] := by
    rw [ne_eq, List.rdropWhile_eq_nil_iff]
    obtain ⟨c, hc, hdot⟩ := h
    intro hall
    simpa [hdot] using hall c hc
  have hdot := List.rdropWhile_last_not (fun c => !isDot c) name hne
  rw [Bool.not_eq_true, Bool.not_eq_false', isDot_iff] at hdot
  refine ⟨(name.rdropWhile fun c => !isDot c).dropLast, ?_⟩
  rw [List.append_cons, ← hdot, List.dropLast_append_getLast hne]
  exact hsplit.symm

theorem suffix_isSuffix (name : List Char) : suffix name <:+ name := by
  by_cases h : afterDot name ≠ [] ∧ (afterDot name).length + 1 < name.length
  · have hdot : ∃ c ∈ name, isDot c = true := by
      by_contra hnone
      have hall : afterDot name = name :=
        List.rtakeWhile_eq_self_iff.mpr fun c hc => by
          cases hc' : isDot c with
          | false => rfl
          | true => exact absurd ⟨c, hc, hc'⟩ hnone
      rw [hall] at h
      omega
    obtain ⟨front, hfront⟩ := around_last_dot hdot
    rw [suffix, if_pos h]
    exact ⟨front, hfront.symm⟩
  · rw [suffix, if_neg h]
    exact List.nil_suffix

/-- The only dot of an extension is its first letter. -/
theorem not_dot_of_suffix {i : Nat} {c : Char} (hi : 0 < i) (h : (suffix name)[i]? = some c) :
    isDot c = false := by
  rw [suffix] at h
  split at h
  · obtain ⟨i, rfl⟩ := Nat.exists_eq_succ_of_ne_zero (Nat.ne_of_gt hi)
    rw [List.getElem?_cons_succ] at h
    exact not_dot_of_mem_afterDot (List.mem_of_getElem? h)
  · simp at h

/-- Without dots at its ends, a name without an extension has none at all. -/
theorem not_dot_of_suffix_nil (htight : Tight isDot name) (h : suffix name = []) :
    ∀ c ∈ name, isDot c = false := by
  intro c hc
  by_contra hdot
  obtain ⟨front, hfront⟩ := around_last_dot ⟨c, hc, by simpa using hdot⟩
  cases front with
  | nil =>
    have hhead := htight.1 '.' (by rw [hfront]; rfl)
    cases hhead
  | cons first front =>
    have hnil : afterDot name = [] := by
      by_contra hne
      have hlen : (afterDot name).length + 1 < name.length := by
        have := congrArg List.length hfront
        simp only [List.length_append, List.length_cons] at this
        omega
      rw [suffix, if_pos ⟨hne, hlen⟩] at h
      cases h
    rw [hnil] at hfront
    have hlast := htight.2 '.' (by rw [hfront, List.getLast?_append]; rfl)
    cases hlast

/-! ## a safe name stays itself -/

theorem Safe.tight {p : Char → Bool} (h : Safe name) (hp : ∀ c, p c = true → isBlank c = true) :
    Tight p name := by
  constructor
  · intro c hc
    have := h.ends.1 c hc
    cases hpc : p c with
    | false => rfl
    | true => rw [hp c hpc] at this; cases this
  · intro c hc
    have := h.ends.2 c hc
    cases hpc : p c with
    | false => rfl
    | true => rw [hp c hpc] at this; cases this

theorem map_eq_self {f : Char → Char} (h : ∀ c ∈ name, f c = c) : name.map f = name := by
  rw [List.map_congr_left h, List.map_id']

theorem Safe.candidate (h : Safe name) : candidate name = name := by
  have hspace : trim isSpace name = name :=
    trim_of_tight (h.tight fun c hc => by simp [isBlank, hc])
  have hslashes : (name.map fun c => if c = '\\' then '/' else c) = name := by
    refine map_eq_self fun c hc => if_neg fun heq => ?_
    have := h.letters c hc
    rw [heq] at this
    cases this
  have hbase : basename name = name := by
    have hslash : '/' ∉ name := fun hc => by
      have := h.letters _ hc
      cases this
    have hdot : name ≠ ['.'] := fun heq => by
      have := h.ends.1 '.' (by rw [heq]; rfl)
      cases this
    rw [basename, List.splitOn_eq_singleton hslash, List.filter_cons_of_pos (by simp [h.ne_nil, hdot])]
    rfl
  have hunsafe : (name.map fun c => if isUnsafe c then '_' else c) = name :=
    map_eq_self fun c hc => if_neg (by simp [h.letters c hc])
  rw [Names.candidate, hspace, hslashes, hbase, hunsafe, hspace]
  exact trim_of_tight (h.tight fun c hc => by simp [isBlank, hc])

theorem Safe.again (h : Safe name) (fallback : String) :
    sanitizeFilename (some (String.ofList name)) fallback = String.ofList name := by
  have hne : String.ofList name ≠ "" := fun heq => h.ne_nil (by
    have := congrArg String.toList heq
    simpa using this)
  rw [sanitizeFilename, if_neg hne, String.toList_ofList, h.candidate, if_neg h.ne_nil, cut,
    if_pos h.length]

/-! ## what comes out -/

theorem mem_of_mem_trim {p : Char → Bool} {c : Char} (h : c ∈ trim p name) : c ∈ name := by
  rw [trim, List.mem_reverse] at h
  have := (List.dropWhile_sublist p).mem h
  exact (List.dropWhile_sublist p).mem (List.mem_reverse.mp this)

theorem candidate_letters : ∀ c ∈ candidate name, isUnsafe c = false := by
  intro c hc
  obtain ⟨d, -, rfl⟩ := List.mem_map.mp (mem_of_mem_trim (mem_of_mem_trim hc))
  by_cases hd : isUnsafe d = true
  · rw [if_pos hd]
    rfl
  · rw [if_neg hd]
    simpa using hd

theorem candidate_tight : Tight isDot (candidate name) := tight_trim isDot _

theorem cut_length (name : List Char) : (cut name).length ≤ MAX_NAME_LENGTH := by
  rw [cut]
  split
  · assumption
  · have hend : ((suffix name).take 16).length ≤ 16 := List.length_take_le ..
    have hstem (n : Nat) : (name.take n).length ≤ n := List.length_take_le ..
    simp only [MAX_NAME_LENGTH]
    split
    · rw [List.length_append]
      exact Nat.le_trans (Nat.add_le_add_right (hstem _) _) (by omega)
    · exact Nat.le_trans (hstem _) (Nat.sub_le ..)

theorem cut_letters {c : Char} (h : c ∈ cut name) : c ∈ name := by
  rw [cut] at h
  split at h
  · exact h
  · dsimp only at h
    split at h
    · rcases List.mem_append.mp h with h | h
      · exact List.mem_of_mem_take h
      · exact (suffix_isSuffix name).subset (List.mem_of_mem_take h)
    · exact List.mem_of_mem_take h

theorem cut_head (name : List Char) : (cut name).head? = name.head? := by
  rw [cut]
  split
  · rfl
  · have hroom : MAX_NAME_LENGTH - ((suffix name).take 16).length ≠ 0 := by
      simp [MAX_NAME_LENGTH]
      omega
    have hstem : (name.take (MAX_NAME_LENGTH - ((suffix name).take 16).length)).head? =
        name.head? := by
      rw [List.head?_take, if_neg hroom]
    dsimp only
    split
    · rw [List.head?_append, hstem]
      cases name with
      | nil => simp [MAX_NAME_LENGTH] at *
      | cons c name => rfl
    · exact hstem

theorem getLast?_of_suffix {l l' : List Char} (h : l <:+ l') (hne : l ≠ []) :
    l.getLast? = l'.getLast? := by
  obtain ⟨front, rfl⟩ := h
  rw [List.getLast?_append_of_ne_nil _ hne]

theorem cut_last (name : List Char) : (cut name).getLast? = lastKept name := by
  rw [cut, lastKept]
  dsimp only
  split
  · rfl
  · rename_i hlong
    by_cases hnil : suffix name = []
    · have hlt : MAX_NAME_LENGTH - 1 < name.length := by omega
      rw [hnil]
      simp only [List.take_nil, ne_eq, not_true_eq_false, if_false, if_true, List.length_nil,
        Nat.sub_zero]
      rw [List.getLast?_take, if_neg (by decide), List.getElem?_eq_getElem hlt]
      rfl
    · have hne : (suffix name).take 16 ≠ [] := by simp [hnil]
      rw [if_pos hne, if_neg hnil, List.getLast?_append_of_ne_nil _ hne]
      split
      · rename_i hshort
        rw [List.take_of_length_le hshort]
        exact getLast?_of_suffix (suffix_isSuffix name) hnil
      · rename_i hlong
        have hlt : 15 < (suffix name).length := by omega
        rw [List.getLast?_take, if_neg (by decide), List.getElem?_eq_getElem hlt]
        rfl

/-- Where a name without dots at its ends is cut, there is no dot either. -/
theorem lastKept_not_dot (h : Tight isDot name) : ∀ c ∈ lastKept name, isDot c = false := by
  intro c hc
  rw [lastKept] at hc
  split at hc
  · exact h.2 c hc
  · split at hc
    · rename_i hnil
      exact not_dot_of_suffix_nil h hnil c (List.mem_of_getElem? hc)
    · split at hc
      · exact h.2 c hc
      · exact not_dot_of_suffix (by decide) hc

theorem cut_ending (h : MAX_NAME_LENGTH < name.length) : (suffix name).take 16 <:+ cut name := by
  rw [cut, if_neg (by omega)]
  dsimp only
  split
  · exact List.suffix_append _ _
  · rename_i hnil
    rw [not_not.mp hnil]
    exact List.nil_suffix

theorem isBlank_eq_false {c : Char} : isBlank c = false ↔ isSpace c = false ∧ isDot c = false := by
  rw [isBlank, Bool.or_eq_false_iff]

/-- A name that is left after trimming comes out safe just when it is neat. -/
theorem safe_cut_iff (hne : candidate name ≠ []) : Safe (cut (candidate name)) ↔ Neat name := by
  constructor
  · intro h
    refine ⟨fun c hc => ?_, fun c hc => ?_⟩
    · exact (isBlank_eq_false.mp (h.ends.1 c (by rw [cut_head]; exact hc))).1
    · exact (isBlank_eq_false.mp (h.ends.2 c (by rw [cut_last]; exact hc))).1
  · intro h
    refine ⟨fun hnil => hne ?_, cut_length _, fun c hc => candidate_letters c (cut_letters hc),
      fun c hc => ?_, fun c hc => ?_⟩
    · have := cut_head (candidate name)
      rw [hnil] at this
      exact List.head?_eq_none_iff.mp this.symm
    · rw [cut_head] at hc
      exact isBlank_eq_false.mpr ⟨h.front c hc, candidate_tight.1 c hc⟩
    · rw [cut_last] at hc
      exact isBlank_eq_false.mpr ⟨h.back c hc, lastKept_not_dot candidate_tight c hc⟩

/-- Nothing is left of a name that is neat for want of letters. -/
theorem neat_of_nil (h : candidate name = []) : Neat name := by
  refine ⟨fun c hc => ?_, fun c hc => ?_⟩
  · rw [h] at hc
    cases hc
  · rw [h] at hc
    cases hc

theorem sanitizeFilename_some (n fallback : String) :
    sanitizeFilename (some n) fallback =
      if candidate n.toList = [] then fallback else String.ofList (cut (candidate n.toList)) := by
  by_cases h : n = ""
  · subst h
    rfl
  · rw [sanitizeFilename, if_neg h]

theorem cleaned_fallback {fallback : String} (h : Safe fallback.toList) (name : Option String)
    (hname : ∀ n, name = some n → candidate n.toList = [])
    (hout : sanitizeFilename name fallback = fallback) : Cleaned name fallback := by
  refine ⟨by rw [hout]; exact h, fun n hn hlong => ?_, fun other => ?_⟩
  · rw [hname n hn] at hlong
    cases hlong
  · rw [hout, ← String.ofList_toList (s := fallback)]
    exact h.again other

/-- The name that comes out is safe and stays itself just when taking the dots off the
ends bares no white space and the cut is not made behind one. -/
theorem cleaned_iff_neat (name : Option String) (fallback : String)
    (hfallback : Safe fallback.toList) :
    Cleaned name fallback ↔ ∀ n, name = some n → Neat n.toList := by
  cases name with
  | none =>
    constructor
    · rintro - _ ⟨⟩
    · intro _
      exact cleaned_fallback hfallback none (by rintro _ ⟨⟩) rfl
  | some n =>
    by_cases hnil : candidate n.toList = []
    · have hout : sanitizeFilename (some n) fallback = fallback := by
        rw [sanitizeFilename_some, if_pos hnil]
      constructor
      · rintro - _ ⟨⟩
        exact neat_of_nil hnil
      · intro _
        exact cleaned_fallback hfallback _ (by rintro _ ⟨⟩; exact hnil) hout
    · have hout : sanitizeFilename (some n) fallback = String.ofList (cut (candidate n.toList)) := by
        rw [sanitizeFilename_some, if_neg hnil]
      constructor
      · rintro h _ ⟨⟩
        have hsafe := h.safe
        rw [hout, String.toList_ofList] at hsafe
        exact (safe_cut_iff hnil).mp hsafe
      · intro h
        have hsafe := (safe_cut_iff hnil).mpr (h n rfl)
        refine ⟨?_, ?_, fun other => ?_⟩
        · rw [hout, String.toList_ofList]
          exact hsafe
        · rintro _ ⟨⟩ hlong
          rw [hout, String.toList_ofList]
          exact cut_ending hlong
        · rw [hout]
          exact hsafe.again other

theorem safe_file : Safe "file".toList where
  ne_nil := by decide +kernel
  length := by decide +kernel
  letters c hc := by
    have hall : ("file".toList.all fun c => !isUnsafe c) = true := by decide +kernel
    simpa using List.all_eq_true.mp hall c hc
  ends := by decide +kernel

/-- Blanks around a name, a directory in front, and a letter that is reserved. -/
theorem cleaned_iff_neat_report : Cleaned (some " ../re:port.pdf ") "file" := by
  refine (cleaned_iff_neat _ "file" safe_file).mpr fun n hn => ?_
  obtain rfl := Option.some.inj hn
  have hname : candidate " ../re:port.pdf ".toList = "re_port.pdf".toList := by decide +kernel
  constructor
  · rw [hname]
    rintro _ ⟨⟩
    rfl
  · rw [hname]
    rintro _ ⟨⟩
    rfl

/-- Behind the leading dot there is white space, and it leads what comes out. -/
theorem not_cleaned : Safe "file".toList ∧ ¬ Cleaned (some ". a") "file" := by
  refine ⟨safe_file, fun h => ?_⟩
  have hout : sanitizeFilename (some ". a") "file" = " a" := by decide +kernel
  have := h.safe.ends.1 ' ' (by rw [hout]; rfl)
  cases this

end Telemax.Media.Names
