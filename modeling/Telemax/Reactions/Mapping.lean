import Telemax.Lib.Dict

/-!
# Telemax.Reactions.Mapping

Reactions as MAX counts them, and which of them Telegram can show.  The counters
never say who reacted: the contact's reactions are what is left of them without
the owner's.
-/

namespace Telemax.Reactions

abbrev Counters := Dict String Int

/-! ## the two sets -/

/-- Telegram's free set: anything outside it cannot be set by a bot. -/
def TELEGRAM_FREE : List String := [
  "👍", "👎", "❤", "❤️", "🔥", "🥰", "👏", "😁", "🤔", "🤯", "😱", "🤬",
  "😢", "🎉", "🤩", "🤮", "💩", "🙏", "👌", "🕊", "🤡", "🥱", "🥴", "😍",
  "🐳", "❤‍🔥", "🌚", "🌭", "💯", "🤣", "⚡", "🍌", "🏆", "💔", "🤨", "😐",
  "🍓", "🍾", "💋", "🖕", "😈", "😴", "😭", "🤓", "👻", "👨‍💻", "👀", "🎃",
  "🙈", "😇", "😨", "🤝", "✍", "🤗", "🫡", "🎅", "🎄", "☃", "💅", "🤪",
  "🗿", "🆒", "💘", "🙉", "🦄", "😘", "💊", "🙊", "😎", "👾", "🤷‍♂", "🤷",
  "🤷‍♀", "😡"]

/-- Meaning groups: the first member that the target side accepts wins. -/
def GROUPS : List (List String) := [
  ["👍", "👌", "💪", "🤝"],
  ["👎", "😡", "🤬", "🖕"],
  ["❤️", "❤", "🥰", "😍", "😘", "💋", "💘", "🖤", "❤️‍🩹"],
  ["🔥", "💯", "🚀", "⚡"],
  ["🤣", "😂", "😁", "😜", "🤪", "🤡"],
  ["😢", "😭", "😔", "💔", "🥺"],
  ["😱", "😨", "🤯", "😳", "👀"],
  ["🤔", "🧐", "🤨", "😐", "🤷", "🤷‍♀️", "🤷‍♂️"],
  ["🎉", "🥳", "🤩", "🏆"],
  ["🤮", "💩", "😒", "🥴"],
  ["🙏", "🫡", "👏"],
  ["😴", "🥱"],
  ["👻", "💀", "🗿", "😈"],
  ["🐱", "🐶"],
  ["🎄", "🎅", "☃️", "🌚", "🌝"],
  ["❓", "❗", "🛑"]]

/-- `_GROUP_OF`: the last group that has it. -/
def groupOf (emoji : String) : List String :=
  (GROUPS.reverse.find? (·.contains emoji)).getD []

/-- A MAX reaction as a Telegram one, or none where only text will do. -/
def toTelegram (emoji : String) : Option String :=
  if TELEGRAM_FREE.contains emoji then some emoji
  else (groupOf emoji).find? (TELEGRAM_FREE.contains ·)

/-- The text fallback. -/
def describe (emoji : String) : String := "Реакция: " ++ emoji

/-! ## the counters -/

namespace Counters

def count (counters : Counters) (emoji : String) : Int := (counters.get? emoji).getD 0

/-- `_without`: the counters with the owner's own reaction taken out of them. -/
def without (counters : Counters) (ours : Option String) : Counters :=
  let remaining := counters.filter fun _ count => decide (0 < count)
  match ours with
  | none => remaining
  | some ours =>
      match remaining.get? ours with
      | some count =>
          if 1 < count then remaining.modify ours (· - 1) else remaining.erase ours
      | none => remaining

/-- `_diff`, which reactions appeared. -/
def added (before after : Counters) : List String :=
  (after.entries.filter fun e => decide (before.count e.1 < e.2)).map (·.1)

/-- `_diff`, which reactions disappeared. -/
def removed (before after : Counters) : List String :=
  (before.entries.filter fun e => decide (after.count e.1 < e.2)).map (·.1)

theorem get?_positive (c : Counters) (emoji : String) :
    (∃ v, (c.filter fun _ count => decide (0 < count)).get? emoji = some v) ↔ 0 < c.count emoji := by
  rw [Dict.get?_filter]
  simp only [count, Option.filter_eq_some_iff, decide_eq_true_eq]
  cases c.get? emoji with
  | none => simp
  | some v => simp

/-- What is counted beyond the owner's own is left. -/
theorem mem_without {c : Counters} {ours : Option String} {emoji : String} :
    emoji ∈ (c.without ours).keys ↔ (if ours = some emoji then 1 else 0) < c.count emoji := by
  rw [Dict.mem_keys]
  simp only [without]
  split
  · simpa using get?_positive c emoji
  · next own =>
      by_cases hown : own = emoji
      · subst hown
        rw [if_pos rfl]
        split
        · next n hn =>
            have hcount : c.count own = n := by
              rw [Dict.get?_filter, Option.filter_eq_some_iff] at hn
              simp [count, hn.1]
            rw [hcount]
            split
            · next hlt => simp [Dict.get?_modify, hn, hlt]
            · next hle => simp [Dict.get?_erase, hle]
        · next hn =>
            have hpos := get?_positive c own
            simp only [hn, reduceCtorEq, exists_false, false_iff, Int.not_lt] at hpos ⊢
            omega
      · rw [if_neg fun h => hown (Option.some.inj h)]
        split
        · split
          · rw [Dict.get?_modify, if_neg (Ne.symm hown)]
            exact get?_positive c emoji
          · rw [Dict.get?_erase, if_neg (Ne.symm hown)]
            exact get?_positive c emoji
        · exact get?_positive c emoji

/-- Where nothing appeared and nothing disappeared, the same is counted. -/
theorem count_of_unchanged {a b : Counters} (hadded : a.added b = []) (hremoved : a.removed b = [])
    (emoji : String) : max (a.count emoji) 0 = max (b.count emoji) 0 := by
  have hle {x y : Counters} (h : ∀ e ∈ y.entries, ¬x.count e.1 < e.2) :
      max (y.count emoji) 0 ≤ max (x.count emoji) 0 := by
    cases hy : y.get? emoji with
    | none =>
        have hcount : y.count emoji = 0 := by simp [count, hy]
        omega
    | some n =>
        have hn := h _ (Dict.get?_eq_some_iff.mp hy)
        have hcount : y.count emoji = n := by simp [count, hy]
        dsimp only at hn
        omega
  simp only [added, removed, List.map_eq_nil_iff, List.filter_eq_nil_iff, decide_eq_true_eq]
    at hadded hremoved
  exact Int.le_antisymm (hle hremoved) (hle hadded)

theorem keys_of_unchanged {a b : Counters} (hadded : a.added b = []) (hremoved : a.removed b = [])
    (ours : Option String) (emoji : String) :
    emoji ∈ (b.without ours).keys ↔ emoji ∈ (a.without ours).keys := by
  have hcount := count_of_unchanged hadded hremoved emoji
  rw [mem_without, mem_without]
  split <;> omega

end Counters

end Telemax.Reactions
