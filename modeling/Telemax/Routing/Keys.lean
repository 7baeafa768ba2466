import Mathlib.Data.List.Basic
import Telemax.Storage.Models

/-!
# Telemax.Routing.Keys

The source keys under which jobs are filed: one event of the outside world, one
key, one job.
-/

namespace Telemax

/-- Where the messages of one dialog go. -/
structure BridgeTarget where
  name : String
  maxChatId : Int
  botId : Int
  deriving DecidableEq, Repr

/-- The key of a message from MAX, whichever of its jobs carries it. -/
def maxSourceKey (chat message : Int) : String := s!"max:{chat}:{message}"

/-- `expected_album_namespace`. -/
def expectedAlbumNamespace (link : Nat) : String := s!"max:{link}"

/-- `_source_key`: the key of a message the owner sent, by intake. -/
def telegramSourceKey (bot message : Int) : Option Int → String
  | some account => s!"tg-owner-msg:{account}:{message}"
  | none => s!"tg:{bot}:{message}"

/-- `send_source_key`. -/
def sendSourceKey (account message : Int) : String := s!"tg-owner-msg:{account}:{message}"

/-- `owner_album_source_key`. -/
def ownerAlbumSourceKey (mediaGroupId : String) : String := s!"tg-owner-msg:{mediaGroupId}"

/-- `owner_emoji_note_source_key`: one version of one reaction. -/
def ownerEmojiNoteSourceKey (account bot message : Int) (pts : Nat) (reaction : String) : String :=
  s!"tg-owner-note:{account}:{bot}:{message}:{pts}:{reaction}"

/-- `edit_source_key`. -/
def editSourceKey (account : Int) (key : String) (pts : Nat) (fingerprint : String) : String :=
  s!"tg-owner-edit:{account}:{key}:{pts}:{fingerprint}"

/-- `delete_source_key`. -/
def deleteSourceKey (account : Int) (key : String) : String := s!"tg-owner-delete:{account}:{key}"

/-- `text_part_source_key`. -/
def textPartSourceKey (base : String) (index total : Nat) : String :=
  if total = 1 then base else s!"{base}:text-part:{index + 1}:{total}"

/-- `owner_album_namespace`. -/
def ownerAlbumNamespace (account peer grouped : Int) : String := s!"own:{account}:{peer}:{grouped}"

/-- The base of the keys of the parts of an oversized job an older process wrote. -/
def legacyTextSourceKey (link : Nat) : String := s!"legacy-text:{link}"

/-! ## reading a key back -/

/-- The fields of a key: what its colons separate. -/
def keyFields (key : String) : List (List Char) := key.toList.splitOn ':'

theorem keyFields_append (a b : String) : keyFields (a ++ ":" ++ b) = keyFields a ++ keyFields b := by
  have hlist : (a ++ ":" ++ b).toList = a.toList ++ ':' :: b.toList := by simp
  rw [keyFields, hlist, List.splitOn_append_cons_self]
  rfl

theorem keyFields_plain {a : String} (h : ':' ∉ a.toList) : keyFields a = [a.toList] :=
  List.splitOn_eq_singleton h

theorem natRepr_toList (n : Nat) : n.repr.toList = Nat.toDigits 10 n := by
  simp [Nat.repr_eq_ofList_toDigits]

theorem isDigit_of_mem_repr {n : Nat} {c : Char} (h : c ∈ n.repr.toList) : c.isDigit = true := by
  rw [natRepr_toList] at h
  exact Nat.isDigit_of_mem_toDigits (by decide) (by decide) h

theorem keyFields_int (n : Int) : keyFields (toString n) = [(toString n).toList] := by
  refine keyFields_plain fun h => ?_
  rw [Int.toString_eq_repr, Int.repr_eq_if] at h
  split at h
  · have hdigit := isDigit_of_mem_repr h
    cases hdigit
  · rw [String.toList_append, List.mem_append] at h
    rcases h with h | h
    · simp at h
    · have hdigit := isDigit_of_mem_repr h
      cases hdigit

theorem natRepr_injective {m n : Nat} (h : m.repr.toList = n.repr.toList) : m = n := by
  rw [natRepr_toList, natRepr_toList] at h
  rw [← Nat.ofDigitChars_ten_toDigits (n := m), h, Nat.ofDigitChars_ten_toDigits]

/-- Different numbers are written differently. -/
theorem intRepr_injective {m n : Int} (h : (toString m).toList = (toString n).toList) : m = n := by
  have hsign : ∀ (i : Int) (k : Nat), ¬ ("-" ++ (-i).toNat.repr).toList = k.repr.toList := by
    intro i k hik
    have hmem : '-' ∈ k.repr.toList := by simp [← hik]
    cases isDigit_of_mem_repr hmem
  rw [Int.toString_eq_repr, Int.toString_eq_repr, Int.repr_eq_if, Int.repr_eq_if] at h
  split at h <;> split at h
  · have := natRepr_injective h
    omega
  · exact absurd h.symm (hsign n _)
  · exact absurd h (hsign m _)
  · have := natRepr_injective (m := (-m).toNat) (n := (-n).toNat) (by simpa using h)
    omega

end Telemax
