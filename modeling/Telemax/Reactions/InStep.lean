import Telemax.Reactions.Sync
import Telemax.Storage.AlbumSettlement

/-!
# Telemax.Reactions.InStep

What the bot shows and what the snapshot says of the contact move together, in
every run whose steps all draw what they count.
-/

namespace Telemax.Reactions

open AlbumSettlement

namespace State

/-! ## what is shown for a list of reactions -/

theorem Right.congr {shown : Option String} {theirs theirs' : List String} (h : Right shown theirs)
    (hsame : ∀ emoji, emoji ∈ theirs' ↔ emoji ∈ theirs) : Right shown theirs' where
  none hnil := h.none (List.eq_nil_iff_forall_not_mem.mpr fun emoji hmem => by
    have hmem' := (hsame emoji).mpr hmem
    rw [hnil] at hmem'
    cases hmem')
  one emoji hmem mapped hmapped := by
    obtain ⟨emoji', hmem', mapped', hall⟩ := h.one emoji ((hsame emoji).mp hmem) mapped hmapped
    exact ⟨emoji', (hsame emoji').mpr hmem', mapped', hall⟩

/-- Nothing is shown where Telegram can show nothing. -/
theorem right_none {theirs : List String} (h : mappable theirs = false) : Right none theirs where
  none _ := rfl
  one emoji hmem mapped hmapped := by
    have hnot := List.any_eq_false.mp h emoji hmem
    rw [hmapped] at hnot
    exact absurd rfl hnot

theorem right_drawn {theirs : List String} {emoji mapped : String} (hmem : emoji ∈ theirs)
    (hmapped : toTelegram emoji = some mapped) : Right (some mapped) theirs where
  none hnil := by
    rw [hnil] at hmem
    cases hmem
  one _ _ _ _ := ⟨emoji, hmem, mapped, hmapped, rfl⟩

/-- A note changes nothing that is shown. -/
theorem right_noted {shown : Option String} {theirs : List String} {emoji : String}
    (hmem : emoji ∈ theirs) (h : mappable theirs = false ∨ showsOne shown theirs = true) :
    Right shown theirs where
  none hnil := by
    rw [hnil] at hmem
    cases hmem
  one emoji' hmem' mapped hmapped := by
    rcases h with hnone | hone
    · have hnot := List.any_eq_false.mp hnone emoji' hmem'
      rw [hmapped] at hnot
      exact absurd rfl hnot
    · obtain ⟨hsome, hany⟩ := (Bool.and_eq_true ..).mp hone
      obtain ⟨shown, rfl⟩ := Option.isSome_iff_exists.mp hsome
      obtain ⟨e, he, heq⟩ := List.any_eq_true.mp hany
      exact ⟨e, he, shown, of_decide_eq_true heq, rfl⟩

/-! ## the mapping -/

/-- Both unique indexes, over the rows of the bot. -/
theorem Mapped.unique {bot : Int} {m : MessageMap} (hindexed : m.Indexed sameLink) {i j : Nat}
    {x y : MessageLink} {message message' target target' : Int}
    (hx : Mapped bot m i x message target) (hy : Mapped bot m j y message' target')
    (h : x.maxChatId = y.maxChatId ∧ message = message' ∨ target = target') : i = j := by
  by_contra hne
  have hclash := Table.clashes_eq_false_iff.mp (hindexed i x hx.row) j y hy.row (Ne.symm hne)
  simp only [sameLink, MessageMap.sameMax, MessageMap.sameTelegram, hx.max, hy.max, hx.telegram,
    hy.telegram, hx.bot, hy.bot, Option.isSome_some, Bool.true_and, Bool.or_eq_false_iff] at hclash
  rcases h with ⟨hchat, rfl⟩ | rfl
  · simp [hchat] at hclash
  · simp at hclash

theorem Mapped.link_eq {bot : Int} {m : MessageMap} {i : Nat} {x y : MessageLink}
    {message message' target target' : Int} (hx : Mapped bot m i x message target)
    (hy : Mapped bot m i y message' target') : x = y ∧ message = message' ∧ target = target' := by
  obtain rfl : x = y := Option.some.inj (hx.row.symm.trans hy.row)
  exact ⟨rfl, Option.some.inj (hx.max.symm.trans hy.max),
    Option.some.inj (hx.telegram.symm.trans hy.telegram)⟩

/-- An update that no index refuses. -/
theorem indexed_tryUpdate {m m' : MessageMap} (hindexed : m.Indexed sameLink) {id : Nat}
    {guard : MessageLink → Bool} {f : MessageLink → MessageLink}
    (h : m.tryUpdate id guard f = some m') : m'.Indexed sameLink := by
  unfold MessageMap.tryUpdate at h
  split at h
  · next r hr =>
      split at h
      · obtain rfl := Option.some.inj h
        exact hindexed
      · split at h
        · cases h
        · next hclash =>
            obtain rfl := Option.some.inj h
            refine hindexed.modify sameLink_comm fun p hp => ?_
            obtain rfl := Option.some.inj (hp.symm.trans hr)
            exact Bool.not_eq_true _ ▸ hclash
  · obtain rfl := Option.some.inj h
    exact hindexed

theorem indexed_tryInsert {m m' : MessageMap} (hindexed : m.Indexed sameLink) {r : MessageLink}
    (h : m.tryInsert r = some m') : m'.Indexed sameLink := by
  unfold MessageMap.tryInsert at h
  split at h
  · cases h
  · next hclash =>
      obtain rfl := Option.some.inj h
      refine hindexed.insert sameLink_comm fun j q hq => ?_
      exact Table.clashes_eq_false_iff.mp (Bool.not_eq_true _ ▸ hclash) j q hq
        (Nat.ne_of_lt (Table.lt_next hq))

/-! ## the state between two steps -/

variable {cfg : Config} {s s' : State}

structure Kept (cfg : Config) (s : State) : Prop where
  indexed : s.messages.Indexed sameLink
  right : ∀ i link message target, Mapped cfg.bot s.messages i link message target →
    Right (s.shown (link.telegramChatId, target)) (s.contacts link.maxChatId message).keys
  /-- Only what is mapped has been drawn. -/
  undrawn : ∀ chat target, (∀ i link message, Mapped cfg.bot s.messages i link message target →
    link.telegramChatId ≠ chat) → s.shown (chat, target) = none
  /-- Only what is mapped has been counted. -/
  uncounted : ∀ chat message, (∀ i link target, Mapped cfg.bot s.messages i link message target →
    link.maxChatId ≠ chat) → ∀ snapshot, s.snapshots (chat, message) = some snapshot →
    snapshot.counters = Dict.empty
  mirrored : ∀ m ∈ s.mirrored, m.emoji ∈ m.theirs

theorem without_empty (ours : Option String) : Counters.without Dict.empty ours = Dict.empty := by
  cases ours <;> rfl

namespace Kept

/-- Of what is not mapped, nothing is counted. -/
theorem contacts_eq (h : s.Kept cfg) {chat message : Int}
    (hno : ∀ i link target, Mapped cfg.bot s.messages i link message target →
      link.maxChatId ≠ chat) : s.contacts chat message = Dict.empty := by
  unfold contacts
  split
  · next snapshot hsnapshot =>
      rw [h.uncounted chat message hno snapshot hsnapshot]
      exact without_empty _
  · rfl

/-- **A reaction and its snapshot move together.** -/
theorem moved (h : s.Kept cfg) {i : Nat} {link : MessageLink} {message target : Int}
    (hx : Mapped cfg.bot s.messages i link message target) {shown : Option String}
    {snapshot : ReactionSnapshot} (hmessages : s'.messages = s.messages)
    (hshown : s'.shown = Function.update s.shown (link.telegramChatId, target) shown)
    (hsnapshots : s'.snapshots =
      Function.update s.snapshots (link.maxChatId, message) (some snapshot))
    (hright : Right shown (snapshot.counters.without snapshot.yourReaction).keys)
    (hmirrored : ∀ m ∈ s'.mirrored, m.emoji ∈ m.theirs) : s'.Kept cfg := by
  refine ⟨hmessages ▸ h.indexed, fun j y message' target' hy => ?_, fun chat target' hno => ?_,
    fun chat message' hno snapshot' hsnapshot => ?_, hmirrored⟩
  · rw [hmessages] at hy
    simp only [contacts, hshown, hsnapshots]
    by_cases hij : i = j
    · subst hij
      obtain ⟨rfl, rfl, rfl⟩ := hx.link_eq hy
      rw [Function.update_self, Function.update_self]
      exact hright
    · rw [Function.update_of_ne, Function.update_of_ne]
      · exact h.right j y message' target' hy
      · exact fun heq => hij (hx.unique h.indexed hy
          (.inl ⟨(Prod.mk.inj heq).1.symm, (Prod.mk.inj heq).2.symm⟩))
      · exact fun heq => hij (hx.unique h.indexed hy (.inr (Prod.mk.inj heq).2.symm))
  · rw [hmessages] at hno
    rw [hshown, Function.update_of_ne]
    · exact h.undrawn chat target' hno
    · rintro ⟨⟩
      exact hno i link message hx rfl
  · rw [hmessages] at hno
    rw [hsnapshots, Function.update_of_ne] at hsnapshot
    · exact h.uncounted chat message' hno snapshot' hsnapshot
    · rintro ⟨⟩
      exact hno i link target hx rfl

/-- **The mapping grows**: what is mapped stays so, and what is mapped now was not before. -/
theorem remapped (h : s.Kept cfg) {m : MessageMap} (hindexed : m.Indexed sameLink)
    (hold : ∀ i link message target, Mapped cfg.bot s.messages i link message target →
      Mapped cfg.bot m i link message target)
    (hnew : ∀ i link message target, Mapped cfg.bot m i link message target →
      Mapped cfg.bot s.messages i link message target ∨
        ∀ link message target, ¬Mapped cfg.bot s.messages i link message target) :
    Kept cfg { s with messages := m } := by
  refine ⟨hindexed, fun i link message target hx => ?_, fun chat target hno => ?_,
    fun chat message hno => ?_, h.mirrored⟩
  · rcases hnew i link message target hx with hthere | hfresh
    · exact h.right i link message target hthere
    · have hundrawn : s.shown (link.telegramChatId, target) = none := by
        refine h.undrawn _ _ fun j y message' hy _ => ?_
        obtain rfl := hx.unique hindexed (hold _ _ _ _ hy) (.inr rfl)
        exact hfresh _ _ _ hy
      have hcontacts : s.contacts link.maxChatId message = Dict.empty := by
        refine h.contacts_eq fun j y target' hy hchat => ?_
        obtain rfl := hx.unique hindexed (hold _ _ _ _ hy) (.inl ⟨hchat.symm, rfl⟩)
        exact hfresh _ _ _ hy
      change Right (s.shown _) (s.contacts _ _).keys
      rw [hundrawn, hcontacts]
      exact right_none rfl
  · exact h.undrawn chat target fun i link message hx => hno i link message (hold _ _ _ _ hx)
  · exact h.uncounted chat message fun i link target hx => hno i link target (hold _ _ _ _ hx)

theorem mapped (h : s.Kept cfg) {r : MessageLink} {m : MessageMap}
    (hm : s.messages.tryInsert r = some m) : Kept cfg { s with messages := m } := by
  have hindexed := indexed_tryInsert h.indexed hm
  obtain rfl := MessageMap.tryInsert_eq_some hm
  refine h.remapped hindexed (fun i link message target hx => ⟨?_, hx.bot, hx.max, hx.telegram⟩)
    fun i link message target hx => ?_
  · rw [Table.get?_insert, if_neg (Nat.ne_of_lt (Table.lt_next hx.row)), hx.row]
  · have hrow := hx.row
    rw [Table.get?_insert] at hrow
    split at hrow
    · next hi =>
        refine .inr fun link' _ _ hy => ?_
        have hnone := Table.get?_next s.messages
        rw [← hi, hy.row] at hnone
        cases hnone
    · exact .inl ⟨hrow, hx.bot, hx.max, hx.telegram⟩

/-- A row that lacks an id gets it. -/
theorem attached (h : s.Kept cfg) {id : Nat} {guard : MessageLink → Bool}
    {f : MessageLink → MessageLink} {m : MessageMap}
    (hm : s.messages.tryUpdate id guard f = some m)
    (hguard : ∀ r, guard r = true →
      f r = r ∨ r.maxMessageId = none ∨ r.telegramMessageId = none) :
    Kept cfg { s with messages := m } := by
  have hget := MessageMap.tryUpdate_get? hm
  refine h.remapped (indexed_tryUpdate h.indexed hm)
    (fun i link message target hx => ⟨?_, hx.bot, hx.max, hx.telegram⟩)
    fun i link message target hx => ?_
  · rw [hget, hx.row, Option.map_some]
    split
    · next hi =>
        rcases hguard link ((Bool.and_eq_true ..).mp hi).2 with heq | hnone | hnone
        · rw [heq]
        · exact absurd (hnone.symm.trans hx.max) nofun
        · exact absurd (hnone.symm.trans hx.telegram) nofun
    · rfl
  · have hrow := hx.row
    rw [hget] at hrow
    obtain ⟨r, hr, hlink⟩ := Option.map_eq_some_iff.mp hrow
    split at hlink
    · next hi =>
        rcases hguard r ((Bool.and_eq_true ..).mp hi).2 with heq | hnone | hnone
        · rw [heq] at hlink
          subst hlink
          exact .inl ⟨hr, hx.bot, hx.max, hx.telegram⟩
        · refine .inr fun y _ _ hy => ?_
          obtain rfl := Option.some.inj (hr.symm.trans hy.row)
          exact absurd (hnone.symm.trans hy.max) nofun
        · refine .inr fun y _ _ hy => ?_
          obtain rfl := Option.some.inj (hr.symm.trans hy.row)
          exact absurd (hnone.symm.trans hy.telegram) nofun
    · subst hlink
      exact .inl ⟨hr, hx.bot, hx.max, hx.telegram⟩

end Kept

/-! ## drawing -/

theorem carryNote_cases (cfg : Config) (s : State) (emoji : String) (link : MessageLink) :
    s.carryNote cfg emoji link = (s, false) ∨
      cfg.notes = true ∧ ∃ notes, s.carryNote cfg emoji link = ({ s with notes }, true) := by
  unfold carryNote
  split
  · exact .inl rfl
  · next hnotes =>
      rw [Bool.not_eq_true', Bool.not_eq_false] at hnotes
      split
      · split
        · exact .inr ⟨hnotes, s.notes, rfl⟩
        · exact .inr ⟨hnotes, _, rfl⟩
      · exact .inl rfl

/-- What a drawing leaves: nothing, the reaction, or a note in its place. -/
theorem draw_cases (hstyle : cfg.style = .native) {emoji : String} {link : MessageLink}
    {target : Int} (htarget : link.telegramMessageId = some target) (accepts : Bool) :
    s.draw cfg emoji link accepts = (s, false) ∨
      (∃ mapped, toTelegram emoji = some mapped ∧ s.draw cfg emoji link accepts =
        ({ s with shown := Function.update s.shown (link.telegramChatId, target) (some mapped) },
          true)) ∨
      ((toTelegram emoji).isSome && accepts) = false ∧ cfg.notes = true ∧
        ∃ notes, s.draw cfg emoji link accepts = ({ s with notes }, true) := by
  simp only [draw, htarget, hstyle, if_true]
  cases hmapped : toTelegram emoji with
  | none =>
      exact (carryNote_cases cfg s emoji link).imp_right fun ⟨hnotes, hnote⟩ =>
        .inr ⟨rfl, hnotes, hnote⟩
  | some mapped =>
      cases accepts with
      | true => exact .inr (.inl ⟨mapped, rfl, rfl⟩)
      | false =>
          exact (carryNote_cases cfg s emoji link).imp_right fun ⟨hnotes, hnote⟩ =>
            .inr ⟨rfl, hnotes, hnote⟩

/-- A careful drawing that stands shows one of the contact's reactions, or leaves one that is. -/
theorem draw_right (hstyle : cfg.style = .native) {emoji : String} {link : MessageLink}
    {target : Int} (htarget : link.telegramMessageId = some target) {accepts : Bool}
    {theirs : List String} (hmem : emoji ∈ theirs)
    (hwell : s.drawsWell cfg link emoji theirs accepts = true) :
    s.draw cfg emoji link accepts = (s, false) ∨
      ∃ shown notes, s.draw cfg emoji link accepts =
        ({ s with
          shown := Function.update s.shown (link.telegramChatId, target) shown
          notes }, true) ∧ Right shown theirs := by
  rcases draw_cases (s := s) hstyle htarget accepts with
    hno | ⟨mapped, hmapped, heq⟩ | ⟨hundrawn, hnotes, notes, heq⟩
  · exact .inl hno
  · exact .inr ⟨some mapped, s.notes, heq, right_drawn hmem hmapped⟩
  · refine .inr ⟨s.shown (link.telegramChatId, target), notes, ?_, right_noted hmem ?_⟩
    · rw [heq, Function.update_eq_self]
    · simpa [drawsWell, hundrawn, hnotes, htarget] using hwell

/-! ## the steps -/

namespace Kept

/-- A drawing that stands, and the snapshot after it. -/
theorem drawn (h : s.Kept cfg) (hstyle : cfg.style = .native) {i : Nat} {link : MessageLink}
    {message target : Int} (hx : Mapped cfg.bot s.messages i link message target)
    (snapshot : ReactionSnapshot) {emoji : String} {accepts : Bool}
    (hmem : emoji ∈ (snapshot.counters.without snapshot.yourReaction).keys)
    (hwell : s.drawsWell cfg link emoji (snapshot.counters.without snapshot.yourReaction).keys
      accepts = true) :
    Kept cfg (if (s.draw cfg emoji link accepts).2 then
        (((s.draw cfg emoji link accepts).1.put link.maxChatId message snapshot).mirror
          link.maxChatId message emoji)
      else (s.draw cfg emoji link accepts).1) := by
  rcases draw_right hstyle hx.telegram hmem hwell with hno | ⟨shown, notes, heq, hright⟩
  · rw [hno]
    exact h
  · rw [heq, if_pos rfl]
    refine h.moved hx rfl rfl rfl hright fun m hm => ?_
    rcases List.mem_cons.mp hm with rfl | hm
    · simpa [contacts, put] using hmem
    · exact h.mirrored m hm

/-- A reaction that is taken off, and the snapshot after it. -/
theorem cleared (h : s.Kept cfg) {i : Nat} {link : MessageLink} {message target : Int}
    (hx : Mapped cfg.bot s.messages i link message target) (snapshot : ReactionSnapshot)
    {a : Bool} (hnone : a = true →
      mappable (snapshot.counters.without snapshot.yourReaction).keys = false) :
    Kept cfg (if (s.setReaction a link.telegramChatId target none).2 then
        (s.setReaction a link.telegramChatId target none).1.put link.maxChatId message snapshot
      else (s.setReaction a link.telegramChatId target none).1) := by
  cases a with
  | false => exact h
  | true => exact h.moved hx rfl rfl rfl (right_none (hnone rfl)) h.mirrored

theorem maxReaction (h : s.Kept cfg) (hstyle : cfg.style = .native) {event : ReactionUpdate}
    {accepts : Bool} (hcareful : s.careful cfg (.maxReaction event accepts) = true) :
    (s.onMaxReaction cfg event accepts).Kept cfg := by
  obtain ⟨chat, message, counters⟩ := event
  cases hlink : s.messages.byMaxMessage chat message cfg.bot with
  | none => simpa only [onMaxReaction, hstyle, hlink, reduceCtorEq, if_false] using h
  | some found =>
      obtain ⟨i, link⟩ := found
      obtain ⟨hrow, hwhere⟩ := Table.first_some hlink
      simp only [Bool.and_eq_true, beq_iff_eq] at hwhere
      obtain ⟨⟨rfl, hmessage⟩, hbot⟩ := hwhere
      cases htarget : link.telegramMessageId with
      | none => simpa only [onMaxReaction, hstyle, hlink, htarget, reduceCtorEq, if_false] using h
      | some target =>
          have hx : Mapped cfg.bot s.messages i link message target :=
            ⟨hrow, hbot, hmessage, htarget⟩
          simp only [careful, hlink] at hcareful
          simp only [onMaxReaction, hstyle, hlink, htarget, reduceCtorEq, if_false]
          generalize hprevious : s.snapshots (link.maxChatId, message) = previous at hcareful ⊢
          cases hadded : (Counters.added (previous.elim Dict.empty (·.counters))
              counters).getLast? with
          | some emoji =>
              simp only [hadded, Bool.and_eq_true, List.contains_iff_mem] at hcareful
              exact h.drawn hstyle hx ⟨counters, previous.bind (·.yourReaction)⟩ hcareful.1
                hcareful.2
          | none =>
              simp only [hadded] at hcareful
              dsimp only
              split
              · next hremoved =>
                  simp only [decide_true, Bool.and_true, Bool.not_eq_true'] at hremoved
                  refine h.cleared hx ⟨counters, previous.bind (·.yourReaction)⟩ fun haccepts => ?_
                  simpa [hremoved, haccepts] using hcareful
              · next hremoved =>
                  -- The same is counted as before.
                  simp only [decide_true, Bool.and_true, Bool.not_eq_true', Bool.not_eq_false,
                    List.isEmpty_iff] at hremoved
                  refine h.moved hx rfl (Function.update_eq_self _ _).symm rfl
                    ((h.right i link message target hx).congr fun emoji => ?_) h.mirrored
                  rw [contacts, hprevious]
                  have hkeys := Counters.keys_of_unchanged (List.getLast?_eq_none_iff.mp hadded)
                    hremoved (previous.bind (·.yourReaction)) emoji
                  cases previous with
                  | some snapshot => exact hkeys
                  | none =>
                      rw [Option.elim_none, without_empty] at hkeys
                      exact hkeys

theorem reconcile (h : s.Kept cfg) (hstyle : cfg.style = .native) {i : Nat} {link : MessageLink}
    (hrow : s.messages.get? i = some link) (hbot : link.telegramBotId = cfg.bot)
    {reactions : MessageReactions} {accepts : Bool}
    (hcareful : s.careful cfg (.reconcile i reactions accepts) = true) :
    (s.reconcile cfg link reactions accepts).1.Kept cfg := by
  simp only [State.reconcile]
  split
  · next message target hmessage htarget =>
      have hx : Mapped cfg.bot s.messages i link message target :=
        ⟨hrow, hbot, hmessage, htarget⟩
      split
      · exact h
      · simp only [careful, hrow] at hcareful
        cases hlast : (reactions.counters.without reactions.yours).keys.getLast? with
        | none =>
            have hnil := List.getLast?_eq_none_iff.mp hlast
            have hcleared : Kept cfg _ :=
              h.cleared hx ⟨reactions.counters, reactions.yours⟩ (a := accepts) fun _ => by
                rw [hnil]
                rfl
            dsimp only
            split
            · next hok =>
                rw [if_pos hok] at hcleared
                exact hcleared
            · next hok =>
                rw [if_neg hok] at hcleared
                exact hcleared
        | some emoji =>
            rw [hlast] at hcareful
            have hdrawn := h.drawn hstyle hx ⟨reactions.counters, reactions.yours⟩
              (List.mem_of_getLast? hlast) hcareful
            dsimp only
            split
            · next hstands =>
                rw [if_pos hstands] at hdrawn
                exact hdrawn
            · next hstands =>
                rw [if_neg hstands] at hdrawn
                exact hdrawn
  · exact h

theorem ownerReaction (h : s.Kept cfg) {job : OwnerReaction} {current : Option Int} {accepts : Bool}
    (hcareful : s.careful cfg (.ownerReaction job current accepts) = true) :
    (s.resolveReaction job current accepts).Kept cfg := by
  simp only [State.resolveReaction]
  split
  · exact h
  · next happlied =>
      simp only [careful, happlied, Bool.false_or, Bool.and_eq_true, List.all_eq_true,
        List.contains_iff_mem] at hcareful
      obtain ⟨hsub, hsup⟩ := hcareful
      by_cases hex : ∃ i link target, Mapped cfg.bot s.messages i link job.maxMessageId target ∧
          link.maxChatId = job.maxChatId
      · obtain ⟨i, link, target, hx, hchat⟩ := hex
        rw [← hchat] at hsub hsup ⊢
        exact h.moved hx rfl (Function.update_eq_self _ _).symm rfl
          ((h.right i link _ target hx).congr fun emoji => ⟨hsub emoji, hsup emoji⟩) h.mirrored
      · refine ⟨h.indexed, fun i link message target hx => ?_, h.undrawn,
          fun chat message hno snapshot hsnapshot => ?_, h.mirrored⟩
        · have hne : (link.maxChatId, message) ≠ (job.maxChatId, job.maxMessageId) := by
            intro heq
            obtain ⟨hchat, hmessage⟩ := Prod.mk.inj heq
            exact hex ⟨i, link, target, hmessage ▸ hx, hchat⟩
          have hright := h.right i link message target hx
          simp only [contacts, put, Function.update_of_ne hne] at hright ⊢
          exact hright
        · change Function.update s.snapshots _ _ (chat, message) = some snapshot at hsnapshot
          by_cases hkey : (chat, message) = (job.maxChatId, job.maxMessageId)
          · rw [hkey, Function.update_self] at hsnapshot
            obtain rfl := Option.some.inj hsnapshot
            obtain ⟨rfl, rfl⟩ := Prod.mk.inj hkey
            cases hprevious : s.snapshots (job.maxChatId, job.maxMessageId) with
            | none => rfl
            | some previous => exact h.uncounted _ _ hno previous hprevious
          · exact h.uncounted chat message hno snapshot
              ((Function.update_of_ne hkey _ _).symm.trans hsnapshot)

theorem start (cfg : Config) : Kept cfg {} where
  indexed := fun _ _ h => nomatch h
  right := fun _ _ _ _ h => nomatch h.row
  undrawn := fun _ _ _ => rfl
  uncounted := fun _ _ _ _ h => nomatch h
  mirrored := nofun

/-- A careful step keeps it. -/
theorem step (h : s.Kept cfg) (hstyle : cfg.style = .native) {e : Event}
    (hcareful : s.careful cfg e = true) (hstep : s.step cfg e = some s') : s'.Kept cfg := by
  cases e with
  | mapped r =>
      obtain ⟨m, hm, rfl⟩ := Option.map_eq_some_iff.mp hstep
      exact h.mapped hm
  | attachTelegram id message =>
      obtain ⟨m, hm, rfl⟩ := Option.map_eq_some_iff.mp hstep
      exact h.attached hm fun r hr => .inr (.inr (Option.isNone_iff_eq_none.mp hr))
  | attachMax id message =>
      obtain ⟨m, hm, rfl⟩ := Option.map_eq_some_iff.mp hstep
      refine h.attached hm fun r hr => ?_
      rcases (Bool.or_eq_true ..).mp hr with hnone | hsame
      · exact .inr (.inl (Option.isNone_iff_eq_none.mp hnone))
      · left
        rw [← beq_iff_eq.mp hsame]
  | maxReaction event accepts =>
      obtain rfl := Option.some.inj hstep
      exact h.maxReaction hstyle hcareful
  | reconcile i reactions accepts =>
      simp only [State.step] at hstep
      split at hstep
      · next link hrow =>
          split at hstep
          · next hbot =>
              obtain rfl := Option.some.inj hstep
              exact h.reconcile hstyle hrow hbot hcareful
          · cases hstep
      · cases hstep
  | ownerReaction job current accepts =>
      obtain rfl := Option.some.inj hstep
      exact h.ownerReaction hcareful

theorem inStep (h : s.Kept cfg) : s.InStep cfg where
  right := h.right
  settled i link message target reactions hx hsame := by
    refine (h.right i link message target hx).congr fun emoji => ?_
    rw [Dict.mem_keys, Dict.mem_keys, Dict.same_iff.mp hsame emoji]
  notMirrored := h.mirrored

end Kept

end State

/-- **What the bot shows is what the snapshot says**, in every run of the native style in which
what is drawn is the contact's, nothing is cleared while something of the contact's remains, no note
stands in for a reaction that could be shown, and the owner's reaction changes none of the
contact's. -/
theorem shows_what_it_says (cfg : Config) (hstyle : cfg.style = .native) (s : State)
    (h : Run.Reaches (sys cfg) (fun s e => s.careful cfg e = true) s) : s.InStep cfg := by
  have hkept : s.Kept cfg := by
    induction h with
    | start => exact State.Kept.start cfg
    | step _ hok hst ih => exact ih.step hstyle hok hst
  exact hkept.inStep

/-! ## one message, both sides react -/

def native : Config := ⟨100, .native, true⟩

/-- A message of the contact's, and the bot's copy of it. -/
def copied : MessageLink where
  bridgeName := "anna"
  maxChatId := 777
  maxMessageId := some 5
  telegramBotId := 100
  telegramChatId := 111
  telegramMessageId := some 9
  direction := .maxToTg
  sourceMarker := .fromMax
  createdAt := 0

def thumb : Counters := ⟨[("👍", 1)], by decide⟩

def fire : Counters := ⟨[("🔥", 1)], by decide⟩

def both : Counters := ⟨[("👍", 1), ("🔥", 1)], by decide⟩

/-- The poll sees the contact's, the owner adds their own, and the poll has nothing to do. -/
theorem shows_what_it_says_both :
    ∃ s, Run.Reaches (sys native) (fun s e => s.careful native e = true) s ∧
      s.shown (111, 9) = some "👍" ∧ s.own (777, 5) = some "🔥" ∧ s.InStep native := by
  obtain ⟨s, hs, hfinal⟩ := Run.Reaches.exists_of_play (sys native) (State.careful native)
    [.mapped copied, .reconcile 1 ⟨thumb, none⟩ true, .ownerReaction ⟨1, 777, 5, some "🔥"⟩ none true,
      .reconcile 1 ⟨both, some "🔥"⟩ true]
    (fun s => decide (s.shown (111, 9) = some "👍" ∧ s.own (777, 5) = some "🔥")) (by decide +kernel)
  obtain ⟨hshown, hown⟩ := of_decide_eq_true hfinal
  exact ⟨s, hs, hshown, hown, shows_what_it_says native rfl s hs⟩

/-- The owner reacts, and the event about it is drawn as though the contact had. -/
theorem not_shows_what_it_says :
    ∃ s, Run.Reaches (sys native) Run.anyStep s ∧ s.shown (111, 9) = some "🔥" ∧
      (s.contacts 777 5).keys = [] ∧ s.mirrored = [⟨"🔥", []⟩] ∧ ¬s.InStep native := by
  obtain ⟨s, hs, hfinal⟩ := Run.Reaches.exists_of_play (sys native) (fun _ _ => true)
    [.mapped copied, .ownerReaction ⟨1, 777, 5, some "🔥"⟩ none true, .maxReaction ⟨777, 5, fire⟩ true]
    (fun s => decide (s.shown (111, 9) = some "🔥" ∧ (s.contacts 777 5).keys = [] ∧
      s.mirrored = [⟨"🔥", []⟩])) (by decide +kernel)
  obtain ⟨hshown, hcontacts, hmirrored⟩ := of_decide_eq_true hfinal
  refine ⟨s, hs.mono fun _ _ _ => trivial, hshown, hcontacts, hmirrored, fun h => ?_⟩
  have hmem := h.notMirrored ⟨"🔥", []⟩ (by rw [hmirrored]; exact List.mem_singleton_self _)
  cases hmem

end Telemax.Reactions
