import Mathlib.Data.List.Sort
import Mathlib.Data.List.MinMax
import Telemax.MaxClient.History

/-!
# Telemax.MaxClient.Newest

What `fetch_history` gives for a server that answers a request with the newest
entries not newer than the time asked from: the newest entries of the whole
history, however many pages they take.
-/

namespace Telemax.MaxClient.History

/-- What the server keeps of a message, whatever object it is handed out in. -/
structure Entry where
  id : Int
  time : Int
  text : String := ""
  deriving DecidableEq, Repr

def Item.entry (item : Item) : Entry :=
  ⟨item.id.getD 0, item.time.getD 0, item.text⟩

/-- It has an id and a time. -/
def Item.Whole (item : Item) : Prop :=
  (∃ id, item.id = some id) ∧ ∃ time, item.time = some time

/-- What an entry is given out as. -/
def fetched (entry : Entry) : IncomingMaxMessage where
  messageId := entry.id
  timestamp := entry.time
  text := entry.text
  fromHistory := true

/-- Times and ids grow together. -/
structure Grown (history : List Entry) : Prop where
  ordered : history.Pairwise fun a b => a.id < b.id ∧ a.time ≤ b.time
  dated : ∀ entry ∈ history, 0 < entry.time

def notNewer (fromTime : Option Int) (history : List Entry) : List Entry :=
  match fromTime with
  | none => history
  | some time => history.filter (·.time ≤ time)

/-- `(from_time=t, backward=p)` is answered with the `p` newest entries not newer than `t`,
in any order. -/
def Honest (serve : Server) (history : List Entry) : Prop :=
  ∀ asked page fromTime, 0 < page → ∃ items, serve (asked ++ [.page page fromTime]) = .batch items ∧
    (∀ item ∈ items, item.Whole) ∧
    (items.map Item.entry).Perm (newest page (notNewer fromTime history))

/-- An entry as it is handed out. -/
def Entry.handed (entry : Entry) : Item where
  address := entry.id
  id := some entry.id
  time := some entry.time
  text := entry.text

/-- A server that keeps a history and hands it out as it is asked to. -/
def keeping (history : List Entry) : Server := fun asked =>
  match asked.getLast? with
  | some (.page page fromTime) =>
      .batch ((newest page (notNewer fromTime history)).map Entry.handed)
  | _ => .typeError

/-- Fewer than `page` entries share any one time. -/
def Sparse (page : Int) (history : List Entry) : Prop :=
  ∀ entry ∈ history, ((history.filter (·.time = entry.time)).length : Int) < page

namespace Item.Whole
variable {item : Item}

theorem historyKey (h : item.Whole) : historyKey item = item.entry.id := by
  obtain ⟨⟨id, hid⟩, -⟩ := h
  simp [History.historyKey, Item.entry, hid]

theorem historyTime (h : item.Whole) (hpos : 0 < item.entry.time) :
    historyTime item = some item.entry.time := by
  obtain ⟨-, time, htime⟩ := h
  simp only [Item.entry, htime, Option.getD_some] at hpos ⊢
  simp [History.historyTime, htime, hpos]

end Item.Whole

namespace Grown
variable {history older shown : List Entry}

theorem left (h : Grown (older ++ shown)) : Grown older :=
  ⟨(List.pairwise_append.mp h.ordered).1, fun e he => h.dated e (List.mem_append_left _ he)⟩

theorem right (h : Grown (older ++ shown)) : Grown shown :=
  ⟨(List.pairwise_append.mp h.ordered).2.1, fun e he => h.dated e (List.mem_append_right _ he)⟩

theorem id_lt (h : Grown (older ++ shown)) {a b : Entry} (ha : a ∈ older) (hb : b ∈ shown) :
    a.id < b.id :=
  ((List.pairwise_append.mp h.ordered).2.2 a ha b hb).1

theorem time_le (h : Grown (older ++ shown)) {a b : Entry} (ha : a ∈ older) (hb : b ∈ shown) :
    a.time ≤ b.time :=
  ((List.pairwise_append.mp h.ordered).2.2 a ha b hb).2

/-- The first entry is the oldest. -/
theorem head_le {first entry : Entry} {rest : List Entry} (h : Grown (first :: rest))
    (hentry : entry ∈ first :: rest) : first.time ≤ entry.time := by
  rcases List.mem_cons.mp hentry with rfl | hmem
  · exact Int.le_refl _
  · exact ((List.pairwise_cons.mp h.ordered).1 entry hmem).2

theorem id_inj (h : Grown history) {a b : Entry} (ha : a ∈ history) (hb : b ∈ history)
    (hid : a.id = b.id) : a = b := by
  have hnodup : (history.map (·.id)).Nodup :=
    (h.ordered.imp fun hlt => Int.ne_of_lt hlt.1).map _ fun _ _ hne => hne
  exact List.inj_on_of_nodup_map hnodup ha hb hid

end Grown

/-! ## One page -/

theorem newest_append {α : Type} {page : Int} (older same : List α) (h : same.length < page) :
    newest page (older ++ same) =
      older.drop (older.length - (page.toNat - same.length)) ++ same := by
  have hpos : 0 < page := by omega
  rw [newest, if_pos hpos, List.length_append, List.drop_append]
  congr 1
  · congr 1; omega
  · rw [show older.length + same.length - page.toNat - older.length = 0 by omega, List.drop_zero]

/-- The page is asked for from the oldest entry given so far. -/
def From (fromTime : Option Int) (shown : List Entry) : Prop :=
  fromTime = shown.head?.map (·.time)

section
variable {older shown same back : List Entry} {fromTime : Option Int} {page : Int}
  {items collected : List Item} {seen : List Int}

/-- Of the entries given before, those that come again are of the time asked from. -/
theorem notNewer_append (hgrown : Grown (older ++ shown)) (hsparse : Sparse page (older ++ shown))
    (hpage : 0 < page) (hfrom : From fromTime shown) :
    ∃ same, notNewer fromTime (older ++ shown) = older ++ same ∧ same ⊆ shown ∧
      (same.length : Int) < page := by
  cases shown with
  | nil => exact ⟨[], by simp_all [From, notNewer], List.Subset.refl _, by simpa using hpage⟩
  | cons first rest =>
    have hfirst : first ∈ first :: rest := List.mem_cons_self
    refine ⟨(first :: rest).filter (·.time ≤ first.time), ?_, List.filter_subset_self _, ?_⟩
    · simp only [From, List.head?_cons, Option.map_some] at hfrom
      rw [hfrom, notNewer, List.filter_append]
      congr 1
      exact List.filter_eq_self.mpr fun e he => by simpa using hgrown.time_le he hfirst
    · refine lt_of_le_of_lt ?_ (hsparse first (List.mem_append_right _ hfirst))
      rw [List.filter_append, List.length_append]
      have hsame : (first :: rest).filter (·.time ≤ first.time) =
          (first :: rest).filter (·.time = first.time) := by
        refine List.filter_congr fun e he => ?_
        have hle := hgrown.right.head_le he
        simp only [decide_eq_decide]
        omega
      rw [hsame]
      omega

/-- What is new on a page is what was not given before. -/
theorem fresh_entries (hitems : ∀ item ∈ items, item.Whole)
    (hpage : (items.map Item.entry).Perm (back ++ same)) (hsame : same ⊆ shown)
    (hback : ∀ e ∈ back, ∀ e' ∈ shown, e.id < e'.id)
    (hseen : ∀ key, key ∈ seen ↔ key ∈ shown.map (·.id)) :
    ((items.filter (historyKey · ∉ seen)).map Item.entry).Perm back := by
  have hkeys : items.filter (historyKey · ∉ seen) =
      items.filter ((fun e : Entry => decide (e.id ∉ shown.map (·.id))) ∘ Item.entry) := by
    refine List.filter_congr fun item hitem => ?_
    simp only [Function.comp, (hitems item hitem).historyKey, hseen]
  rw [hkeys, ← List.filter_map]
  refine (hpage.filter _).trans (List.Perm.of_eq ?_)
  rw [List.filter_append, List.filter_eq_self.mpr, List.filter_eq_nil_iff.mpr, List.append_nil]
  · intro e he
    simpa using ⟨e, hsame he, rfl⟩
  · intro e he
    simp only [List.mem_map, not_exists, not_and, decide_eq_true_eq]
    intro e' he' heq
    have hlt := hback e he e' he'
    omega

theorem min?_fresh {first : Entry} {rest : List Entry} (hitems : ∀ item ∈ items, item.Whole)
    (hperm : (items.map Item.entry).Perm (first :: rest)) (hgrown : Grown (first :: rest)) :
    (items.filterMap historyTime).min? = some first.time := by
  have htime : ∀ item ∈ items, item.entry ∈ first :: rest ∧
      historyTime item = some item.entry.time := fun item hitem => by
    have hmem := hperm.subset (List.mem_map_of_mem hitem)
    exact ⟨hmem, (hitems item hitem).historyTime (hgrown.dated _ hmem)⟩
  refine List.min?_eq_some_iff.mpr ⟨?_, fun time hmem => ?_⟩
  · obtain ⟨item, hitem, hentry⟩ := List.mem_map.mp (hperm.symm.subset List.mem_cons_self)
    exact List.mem_filterMap.mpr ⟨item, hitem, by rw [(htime item hitem).2, hentry]⟩
  · obtain ⟨item, hitem, hsome⟩ := List.mem_filterMap.mp hmem
    rw [(htime item hitem).2, Option.some.injEq] at hsome
    exact hsome ▸ hgrown.head_le (htime item hitem).1

end

/-! ## The loop -/

/-- The loop was given the newest entries of the history, and asks from the oldest of them. -/
structure Loaded (history older shown : List Entry) (collected : List Item) (seen : List Int)
    (fromTime : Option Int) : Prop where
  split : history = older ++ shown
  whole : ∀ item ∈ collected, item.Whole
  entries : (collected.map Item.entry).Perm shown
  seen : ∀ key, key ∈ seen ↔ key ∈ shown.map (·.id)
  cursor : From fromTime shown

section
variable {serve : Server} {history older shown : List Entry} {wanted page : Int} {turns : Nat}
  {log : Log} {items collected : List Item} {seen : List Int} {fromTime : Option Int}

namespace Loaded

theorem length (h : Loaded history older shown collected seen fromTime) :
    collected.length = shown.length := by
  simpa using h.entries.length_eq

theorem start (history : List Entry) : Loaded history history [] [] [] none :=
  ⟨by simp, by simp, by simp, by simp, rfl⟩

/-- What a page brings. -/
theorem brings (h : Loaded history older shown collected seen fromTime) (hgrown : Grown history)
    (hsparse : Sparse page history) (hpage : 0 < page) (hitems : ∀ item ∈ items, item.Whole)
    (hreply : (items.map Item.entry).Perm (newest page (notNewer fromTime history))) :
    ∃ before back, older = before ++ back ∧ (back = [] → older = []) ∧
      ((items.filter (historyKey · ∉ seen)).map Item.entry).Perm back := by
  obtain rfl := h.split
  obtain ⟨same, hnewer, hsub, hlength⟩ := notNewer_append hgrown hsparse hpage h.cursor
  rw [hnewer, newest_append _ _ hlength] at hreply
  refine ⟨_, _, (List.take_append_drop _ older).symm, fun hnone => ?_,
    fresh_entries hitems hreply hsub (fun e he e' he' => hgrown.id_lt (List.drop_subset _ _ he) he')
      h.seen⟩
  rw [List.drop_eq_nil_iff] at hnone
  exact List.length_eq_zero_iff.mp (by omega)

/-- After a page with something new on it. -/
theorem turn {before : List Entry} {first : Entry} {rest : List Entry} {fresh : List Item}
    (h : Loaded history (before ++ first :: rest) shown collected seen fromTime)
    (hfresh : ∀ item ∈ fresh, item.Whole) (hperm : (fresh.map Item.entry).Perm (first :: rest)) :
    Loaded history before (first :: rest ++ shown) (collected ++ fresh)
      (seen ++ fresh.map historyKey) (some first.time) where
  split := by simpa using h.split
  whole item hitem := (List.mem_append.mp hitem).elim (h.whole item) (hfresh item)
  entries := by
    rw [List.map_append]
    exact (h.entries.append hperm).trans List.perm_append_comm
  seen key := by
    have hkeys : fresh.map historyKey = (fresh.map Item.entry).map (·.id) := by
      rw [List.map_map]
      exact List.map_congr_left fun item hitem => (hfresh item hitem).historyKey
    rw [List.mem_append, h.seen, hkeys, (hperm.map _).mem_iff, List.map_append, List.mem_append,
      or_comm]
  cursor := rfl

end Loaded

/-- The loop gives the newest entries: as many as were wanted, or all there are. -/
theorem pageLoop_newest (hserve : Honest serve history) (hgrown : Grown history)
    (hsparse : Sparse page history) (hpage : 0 < page)
    (h : Loaded history older shown collected seen fromTime)
    (hturns : wanted ≤ turns + collected.length) :
    ∃ items older shown, (pageLoop serve wanted page turns log collected seen fromTime).1 = .ok items ∧
      history = older ++ shown ∧ (items.map Item.entry).Perm shown ∧
        (wanted ≤ shown.length ∨ older = []) := by
  induction turns generalizing log older shown collected seen fromTime with
  | zero =>
    have hlength := h.length
    exact ⟨collected, older, shown, rfl, h.split, h.entries, .inl (by omega)⟩
  | succ turns ih =>
    obtain ⟨items, hreply, hitems, hperm⟩ := hserve (log.map (·.1)) page fromTime hpage
    obtain ⟨before, back, rfl, hnone, hback⟩ := h.brings hgrown hsparse hpage hitems hperm
    simp only [pageLoop, ask, hreply]
    split
    · rename_i henough
      exact ⟨collected, _, shown, rfl, h.split, h.entries, .inl (h.length ▸ henough)⟩
    split
    · rename_i hfresh
      rw [hfresh, List.map_nil] at hback
      exact ⟨collected, _, shown, rfl, h.split, h.entries, .inr (hnone hback.symm.eq_nil)⟩
    · rename_i hfresh
      have hwhole : ∀ item ∈ items.filter (historyKey · ∉ seen), item.Whole :=
        fun item hmem => hitems item (List.mem_filter.mp hmem).1
      cases back with
      | nil => exact absurd (List.map_eq_nil_iff.mp hback.eq_nil) hfresh
      | cons first rest =>
        have hgrown' : Grown (first :: rest) := by
          have := h.split ▸ hgrown
          exact this.left.right
        rw [min?_fresh hwhole hback hgrown']
        have hlength := List.length_pos_iff.mpr hfresh
        exact ih (h.turn hwhole hback) (by simp only [List.length_append]; omega)

end

/-! ## The whole call -/

theorem insertionSort_fetched {shown : List Entry} {items : List Item} (hgrown : Grown shown)
    (hitems : (items.map Item.entry).Perm shown) :
    (items.map fun item => { normalizeMessage item with fromHistory := true }).insertionSort
        (fun a b => a.messageId ≤ b.messageId) = shown.map fetched := by
  have hmap : (items.map fun item => { normalizeMessage item with fromHistory := true }) =
      (items.map Item.entry).map fetched := by
    rw [List.map_map]; rfl
  have hperm := (List.perm_insertionSort (fun a b : IncomingMaxMessage => a.messageId ≤ b.messageId)
    ((items.map Item.entry).map fetched)).trans (hitems.map fetched)
  rw [hmap]
  refine hperm.eq_of_pairwise ?_ (List.pairwise_insertionSort _ _) ?_
  · intro a b ha hb hab hba
    obtain ⟨e, he, rfl⟩ := List.mem_map.mp (hperm.subset ha)
    obtain ⟨e', he', rfl⟩ := List.mem_map.mp hb
    rw [hgrown.id_inj he he' (Int.le_antisymm hab hba)]
  · exact (hgrown.ordered.imp fun hlt => Int.le_of_lt hlt.1).map _ fun _ _ h => h

/-- A limit that takes no more than was loaded takes the newest of the whole history. -/
theorem newest_of_split {α : Type} (limit : Int) {history older shown : List α}
    (hsplit : history = older ++ shown) (hpos : 0 < limit)
    (henough : limit ≤ shown.length ∨ older = []) : newest limit shown = newest limit history := by
  obtain rfl := hsplit
  obtain henough | rfl := henough
  · have hdrop : older.drop (older.length + shown.length - limit.toNat) = [] :=
      List.drop_eq_nil_of_le (by omega)
    rw [newest, newest, if_pos hpos, if_pos hpos, List.length_append, List.drop_append, hdrop,
      List.nil_append]
    congr 1
    omega
  · rfl

theorem map_newest {α β : Type} (f : α → β) (limit : Int) (messages : List α) :
    newest limit (messages.map f) = (newest limit messages).map f := by
  unfold newest
  split <;> simp

section
variable {serve : Server} {history : List Entry} {limit : Option Int}

theorem pageHistory_newest (hgrown : Grown history) (hserve : Honest serve history)
    (hsparse : Sparse (pageSize limit) history) (hpos : 0 < wanted limit) :
    ∃ items older shown, (pageHistory serve limit).1 = .ok items ∧ history = older ++ shown ∧
      (items.map Item.entry).Perm shown ∧ (wanted limit ≤ shown.length ∨ older = []) :=
  pageLoop_newest hserve hgrown hsparse (by unfold pageSize MAX_HISTORY_PAGE; omega)
    (.start history) (by simp)

/-- Fewer than no entries share a time only where there are no entries. -/
theorem eq_nil_of_sparse (hsparse : Sparse (pageSize limit) history) (hpos : ¬ 0 < wanted limit) :
    history = [] := by
  cases history with
  | nil => rfl
  | cons first rest =>
    have hlt := hsparse first List.mem_cons_self
    unfold pageSize at hlt
    omega

theorem pageHistory_of_not_pos (serve : Server) (hpos : ¬ 0 < wanted limit) :
    pageHistory serve limit = (.ok [], []) := by
  rw [pageHistory, show (wanted limit).toNat = 0 by omega, pageLoop]

/-- Everything when there are at most `limit` entries, and else the newest `limit`. -/
theorem fetchHistory_some {limit : Int} (hgrown : Grown history) (hserve : Honest serve history)
    (hsparse : Sparse (pageSize (some limit)) history) :
    fetchHistory serve (some limit) = .ok ((newest limit history).map fetched) := by
  by_cases hpos : 0 < wanted (some limit)
  · obtain ⟨items, older, shown, hok, hsplit, hperm, henough⟩ :=
      pageHistory_newest hgrown hserve hsparse hpos
    simp only [fetchHistory, hok]
    rw [insertionSort_fetched (hsplit ▸ hgrown).right hperm, map_newest,
      newest_of_split limit hsplit hpos henough]
  · obtain rfl := eq_nil_of_sparse hsparse hpos
    simp [fetchHistory, pageHistory_of_not_pos serve hpos, newest]

/-- Without a limit: everything, up to the most that is ever loaded. -/
theorem fetchHistory_none (hgrown : Grown history) (hserve : Honest serve history)
    (hsparse : Sparse (pageSize none) history) :
    ∃ count, MAX_HISTORY_MESSAGES ≤ count ∧
      fetchHistory serve none = .ok ((newest count history).map fetched) := by
  obtain ⟨items, older, shown, hok, hsplit, hperm, henough⟩ :=
    pageHistory_newest hgrown hserve hsparse (by decide)
  refine ⟨max shown.length MAX_HISTORY_MESSAGES, by omega, ?_⟩
  have hpos : 0 < max (shown.length : Int) MAX_HISTORY_MESSAGES := by
    unfold MAX_HISTORY_MESSAGES; omega
  simp only [fetchHistory, hok]
  rw [insertionSort_fetched (hsplit ▸ hgrown).right hperm, ← newest_of_split _ hsplit hpos]
  · rw [newest, if_pos hpos, show shown.length - (max (shown.length : Int) MAX_HISTORY_MESSAGES).toNat
      = 0 by omega, List.drop_zero]
  · obtain henough | hnone := henough
    · simp only [wanted, Option.getD_none] at henough
      exact .inl (by omega)
    · exact .inr hnone

end

/-- The paging ends, repeats nothing and misses nothing. -/
structure Pages (serve : Server) (limit : Option Int) : Prop where
  /-- Each request but the last two brings an entry. -/
  requests : (pageHistory serve limit).2.length ≤ (wanted limit).toNat + 1
  /-- No number of turns ends the loop before its own conditions do. -/
  ends : ∀ turns, (wanted limit).toNat ≤ turns →
    pageLoop serve (wanted limit) (pageSize limit) turns [] [] [] none = pageHistory serve limit
  noRepeat : NoRepeat serve limit
  complete : ∀ history, Grown history → Honest serve history → Sparse (pageSize limit) history →
    match limit with
    | some limit => fetchHistory serve (some limit) = .ok ((newest limit history).map fetched)
    | none => ∃ count, MAX_HISTORY_MESSAGES ≤ count ∧
        fetchHistory serve none = .ok ((newest count history).map fetched)

/-- The paging keeps all of this exactly when no page repeats itself, and the one page of a
client without the paging arguments repeats nothing either. -/
theorem pages_iff_fair (serve : Server) (limit : Option Int) :
    Pages serve limit ↔ (Answered (replies serve limit) → Fair [] (replies serve limit)) := by
  rw [← noRepeat_iff_fair]
  refine ⟨Pages.noRepeat, fun h => ⟨?_, fun turns hturns => ?_, h, ?_⟩⟩
  · simpa [pageHistory] using
      @pageLoop_log_length serve (wanted limit) (pageSize limit) (wanted limit).toNat [] [] [] none
  · induction turns, hturns using Nat.le_induction with
    | base => rfl
    | succ turns hturns ih => exact (pageLoop_fuel (by simp; omega)).trans ih
  · intro history hgrown hserve hsparse
    cases limit with
    | none => exact fetchHistory_none hgrown hserve hsparse
    | some limit => exact fetchHistory_some hgrown hserve hsparse

/-- A page with one message on it twice. -/
def repeating : Server := fun _ => .batch [⟨1, some 7, none, none, some 5, none, none, ""⟩,
  ⟨2, some 7, none, none, some 5, none, none, ""⟩]

/-- The paging arguments are taken once and refused afterwards, and what is then given
without them was given before. -/
def forgetful : Server
  | [_] => .batch [⟨1, some 7, none, none, some 5, none, none, ""⟩]
  | [_, _] => .typeError
  | _ => .batch [⟨2, some 7, none, none, some 5, none, none, ""⟩]

theorem not_pages : ¬ Pages repeating (some 50) ∧ ¬ Pages forgetful (some 50) := by
  constructor <;> intro h <;> exact absurd (h.noRepeat _ rfl) (by decide)

end Telemax.MaxClient.History
