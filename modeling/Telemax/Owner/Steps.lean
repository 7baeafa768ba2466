import Telemax.Owner.System
import Telemax.Queue.Invariants

/-!
# Telemax.Owner.Steps

What one event is, said once: `Moved` has one constructor for every way an event
can go, with the facts the code had read and the world it leaves.  The rest of
the file reads off it what becomes of each part of the world.

* `QueueAfter` — the queue;
* `LinkAfter` — the mapping rows; `PassAfter` — the passes; `StageAfter` — the senders.
-/

namespace Telemax.Owner

open MessageMap State

/-! ## what an event is -/

/-- An attempt of this kind stands in its sender at this stage. -/
structure AtStage (s : State) (a : Nat) (x : Attempt) (stage : Stage) : Prop where
  attempt : s.queue.attempts.get? a = some x
  phase : x.phase = .inSender
  stage : s.stage a = stage

/-- An edit stands at this stage, with what it read of its payload. -/
structure Editing (s : State) (a : Nat) (x : Attempt) (d : Mutation) (text : String)
    (stage : Stage) : Prop extends AtStage s a x stage where
  kind : x.spec.kind = .tgToMaxEdit
  read : Mutation.read x.spec.payload = some d
  text : x.spec.payload.str? "text" = some text

/-- A delete stands at this stage, with what it read of its payload. -/
structure Deleting (s : State) (a : Nat) (x : Attempt) (d : Mutation) (stage : Stage) : Prop
    extends AtStage s a x stage where
  kind : x.spec.kind = .tgToMaxDelete
  read : Mutation.read x.spec.payload = some d

/-- A resolver that has its mapping row and found no remote message by it. -/
def Asking (s : State) (a : Nat) (x : Attempt) (d : Mutation) (r : MessageLink) : Prop :=
  (∃ text, Editing s a x d text (.linked r)) ∨
    (Deleting s a x d (.linked r) ∧ r.maxMessageId = none)

/-- The ways the aliases of albums are written. -/
inductive AlbumWrite (s : State) : Event → MediaGroups → Prop
  | owned {account peer grouped message : Int} {bridge : String}
      (hplaced : s.bridgePlaced account message = false)
      (hsingle : s.single account message = false) :
      AlbumWrite s (.ownPart account peer grouped message bridge)
        (s.albums.addPart (s.ownedPart account peer grouped message bridge))
  | expected {link index : Nat} {bridge : String} {bot : Int} :
      AlbumWrite s (.expectPart link index bridge bot)
        (s.albums.addPart (s.expectedPart link index bridge bot))
  | seen {part : Nat} {account message : Int} {p : MediaGroupPart}
      (hp : s.albums.get? part = some p) (hdir : p.direction = some .maxToTg)
      (hw : s.ownerWrote account message = false) :
      AlbumWrite s (.seenPart part account message)
        (s.albums.attachOwnerMessage part account message)
  | cleared {link : Nat} (hf : s.fromMax link (fun r => !delivered r) = true) :
      AlbumWrite s (.clearLink link) (s.albums.clearLink link)

/-- The ways the other direction writes the mapping. -/
inductive MapWrite (s : State) : Event → MessageMap → Prop
  | claimed {target : BridgeTarget} {message telegramChat : Int} {fingerprint : Option String} :
      MapWrite s (.claimMax target message telegramChat fingerprint)
        (s.map.claimFromMax (newClaim target.name target.maxChatId message target.botId
          telegramChat fingerprint s.queue.now)).1
  | telegram {link : Nat} {message : Int} {map : MessageMap}
      (hm : s.map.attachTelegramMessage link message = some map) :
      MapWrite s (.attachTelegram link message) map
  | owner {link : Nat} {account message : Int} (hf : s.fromMax link (fun _ => true) = true)
      (hw : s.ownerWrote account message = false) :
      MapWrite s (.attachOwner link account message)
        (s.map.attachOwnerMessage link account message)
  | bound {link : Nat} {account message : Int} (hf : s.fromMax link (fun _ => true) = true)
      (hw : s.ownerWrote account message = false) :
      MapWrite s (.bindOwner link account message) (s.map.bindOwnerMessage link account message)
  | forgotten {link : Nat} (hf : s.fromMax link (fun r => !delivered r) = true) :
      MapWrite s (.forget link) (s.map.forget link)

/-- A pass over an album found no row where it looked, and goes on looking, or records. -/
def Unfound (before after : Progress) : Prop :=
  (before = .locating ∨ before = .locatingHead) ∧ (after = .locatingHead ∨ after = .recording)

/-- The pass whose question or record this event is. -/
def Event.asks? : Event → Option Nat
  | .locate p | .locateHead p | .record p | .passDies p => some p
  | _ => none

/-- The ways an event can go: its event of the queue, and the world after it. -/
inductive Moved (s : State) : Event → Option Queue.Event → World → Prop
  | queue {e : Queue.Event} (ha : s.allows e = true) :
      Moved s (.queue e) (some e) (s.afterQueue e)
  | crash : Moved s .crash (some .crash) s.crash
  -- passes
  | arrived {m : Message} (hm : s.admits m = true) :
      Moved s (.arrive m) none { s.toWorld with passes := s.passes.insert (.begin m) }
  | replied {p : Nat} {y : Pass} (hy : s.passes.get? p = some y) (hp : y.progress = .replying) :
      Moved s (.reply p) none (s.setPass p fun _ =>
        { y with reply := s.maxReplyTarget y.message,
                 progress := if y.message.album.isSome then .locating else .recording })
  | located {p link : Nat} {y : Pass} {group : String} (hy : s.passes.get? p = some y)
      (hp : y.progress = .locating) (hg : y.message.album = some group)
      (hl : s.albums.linkOf group = some link) :
      Moved s (.locate p) none (s.setPass p fun _ => y.mapped link)
  | locatedHead {p link : Nat} {y : Pass} {account : Int} {r : MessageLink}
      (hy : s.passes.get? p = some y) (hp : y.progress = .locatingHead)
      (ha : y.message.account = some account)
      (hl : s.map.byOwnerAccountMessage account y.message.messageId = some (link, r)) :
      Moved s (.locateHead p) none (s.setPass p fun _ => y.mapped link)
  | recorded {p : Nat} {y : Pass} {map : MessageMap} (hy : s.passes.get? p = some y)
      (hp : y.progress = .recording)
      (hm : s.map.recordFromTelegram y.message.intake s.queue.now = some map) :
      Moved s (.record p) none { s.setPass p fun _ => y.mapped s.map.next with map }
  | bound {p link : Nat} {y : Pass} {group : String} (hy : s.passes.get? p = some y)
      (hp : y.progress = .binding) (hg : y.message.album = some group)
      (hl : y.link = some link) :
      Moved s (.bind p) none
        { s.setProgress p (.turn 0) with albums := s.albums.bindLink group link }
  | filed {p : Nat} {y : Pass} (hy : s.passes.get? p = some y) (hp : y.progress = .filing) :
      Moved s (.file p) (some (.enqueueBatch y.parts)) (s.setProgress p (.turn 0))
  | submitted {p index : Nat} {y : Pass} {spec : JobSpec} (hy : s.passes.get? p = some y)
      (hp : y.progress = .turn index) (hspec : y.parts[index]? = some spec) :
      Moved s (.submit p) (some (.submit spec y.message.barrier))
        (s.setProgress p (.waiting index s.queue.attempts.next))
  | resumed {p index a : Nat} {y : Pass} {x : Attempt} (hy : s.passes.get? p = some y)
      (hp : y.progress = .waiting index a) (hx : s.queue.attempts.get? a = some x)
      (hover : x.phase.running = false) :
      Moved s (.resume p) none (s.setProgress p (afterPart y index x (s.stage a)))
  -- nothing found, an index, an exception: the pass goes on without a row, or ends
  | passed {e : Event} {p : Nat} {y : Pass} {progress : Progress}
      (he : e.asks? = some p) (hy : s.passes.get? p = some y)
      (hrun : y.progress.running = true)
      (hnew : progress = .dead ∨ Unfound y.progress progress) :
      Moved s e none (s.setProgress p progress)
  -- edits and deletes of the owner
  | edited {account message : Int} {text stripped fingerprint : String} {pts : Nat}
      {r : MessageLink} {d : Edit} (ht : s.ownerTarget account message = some (d.target, r))
      (hchat : d.chat = r.maxChatId) (hpts : d.pts = pts)
      (htext : d.text = if r.sourceMarker = .fromMax then stripped else text)
      (hsame : ∀ d' ∈ s.edits, d'.jobKey = d.jobKey → d'.target.account = account ∧
        d'.target.key = d.target.key ∧ d'.pts = d.pts ∧ d'.text = d.text) :
      Moved s (.edit account message text pts fingerprint stripped)
        (some (.submit (mutationSpec .tgToMaxEdit r d.jobKey d.payload) .none))
        { s.toWorld with edits := d :: s.edits }
  | deleted {account message : Int} {r : MessageLink} {d : Mutation}
      (ht : s.ownerTarget account message = some (d, r)) :
      Moved s (.delete account message)
        (some (.submit (mutationSpec .tgToMaxDelete r (deleteSourceKey account d.key)
          (d.payload r.maxChatId)) .none)) s.toWorld
  -- sends
  | split {a : Nat} {x : Attempt} {text : String} {link : Int} {r : MessageLink}
      (hx : AtStage s a x .begun) (hk : x.spec.kind = .tgToMaxText) (hm : x.marked = false)
      (htext : x.spec.payload.str? "text" = some text)
      (hlink : x.spec.payload.int? "link_id" = some link)
      (hlong : 1 < (splitMaxText text).length) (hr : s.map.get? link.toNat = some r) :
      Moved s (.split a)
        (some (.enqueueBatch (legacyParts r x.spec.payload link.toNat (splitMaxText text))))
        (s.finish a)
  | splitLost {a : Nat} {x : Attempt} {name why : String} (hx : AtStage s a x .begun) :
      Moved s (.split a) none (s.setStage a (.ended (.raised (.other name why))))
  | posted {a : Nat} {x : Attempt} {chat message : Int} (hx : AtStage s a x .begun)
      (hk : x.spec.kind ∈ ownKinds) (hc : isCreating x.spec.kind = true)
      (hm : x.marked = true) (hfresh : s.known chat message = false)
      (hchat : x.spec.payload.int? "max_chat_id" = some chat) :
      Moved s (.post a message) none
        { s.setStage a (.created message) with
          chat := { chatId := chat, messageId := message, job := x.spec.sourceKey, attempt := a,
                    text := shown x.spec.payload } :: s.chat }
  | answered {a : Nat} {x : Attempt} {message link : Int} {map : MessageMap}
      (hx : AtStage s a x (.created message))
      (hlink : x.spec.payload.int? "link_id" = some link)
      (hm : s.map.attachMaxMessage link.toNat message = some map) :
      Moved s (.answer a) none { s.setStage a (.ended (.delivered (some message))) with map }
  | answeredPlain {a : Nat} {x : Attempt} {message : Int}
      (hx : AtStage s a x (.created message))
      (hlink : x.spec.payload.int? "link_id" = none) :
      Moved s (.answer a) none (s.setStage a (.ended (.delivered (some message))))
  | answerRefused {a : Nat} {x : Attempt} {message : Int} {name why : String}
      (hx : AtStage s a x (.created message)) :
      Moved s (.answer a) none (s.setStage a (.ended (.raised (.other name why))))
  -- `resolve_edit`
  | editOvertaken {a : Nat} {x : Attempt} {d : Mutation} {text : String} {reaches : Bool}
      {found : Nat × OutboxItem} (hx : Editing s a x d text .begun)
      (hd : s.queue.outbox.bySourceKey (deleteSourceKey d.account d.key) = some found) :
      Moved s (.work a reaches) none (s.finish a)
  | editChecked {a : Nat} {x : Attempt} {d : Mutation} {text : String} {reaches : Bool}
      (hx : Editing s a x d text .begun)
      (hd : s.queue.outbox.bySourceKey (deleteSourceKey d.account d.key) = none) :
      Moved s (.work a reaches) none (s.setStage a .checked)
  | editNowhere {a : Nat} {x : Attempt} {d : Mutation} {text : String} {reaches : Bool}
      (hx : Editing s a x d text .checked) (hc : s.canonical d = none) :
      Moved s (.work a reaches) none (s.finish a)
  | editLinked {a i : Nat} {x : Attempt} {d : Mutation} {text : String} {reaches : Bool}
      {r : MessageLink} (hx : Editing s a x d text .checked)
      (hc : s.canonical d = some (i, r)) (hr : r.maxMessageId = none) :
      Moved s (.work a reaches) none (s.setStage a (.linked r))
  | editCalled {a i : Nat} {x : Attempt} {d : Mutation} {text : String} {reaches : Bool}
      {r : MessageLink} {message : Int} (hx : Editing s a x d text .checked)
      (hc : s.canonical d = some (i, r)) (hr : r.maxMessageId = some message) :
      Moved s (.work a reaches) none (s.callEdit a x d r.maxChatId message text reaches)
  | editSent {a i : Nat} {x : Attempt} {d : Mutation} {text : String} {reaches : Bool}
      {r : MessageLink} {send : OutboxItem} {message : Int} (hx : Editing s a x d text (.linked r))
      (hs : s.queue.outbox.bySourceKey d.sendKey = some (i, send)) (hst : send.state = .done)
      (hr : send.remoteMessageId = some message) :
      Moved s (.work a reaches) none (s.callEdit a x d r.maxChatId message text reaches)
  | absorbed {a : Nat} {x : Attempt} {d : Mutation} {text : String} {reaches : Bool}
      {send : Nat × OutboxItem} (hx : Editing s a x d text (.found send))
      (hst : send.2.state = .pending) :
      Moved s (.work a reaches)
        (some (.replacePendingPayload d.sendKey (withText send.2.payload text)))
        (if s.queue.outbox.anyUnsent d.sendKey then s.finish a else s.postpone a)
  | absorbedFailed {a : Nat} {x : Attempt} {d : Mutation} {text : String} {reaches : Bool}
      {send : Nat × OutboxItem} (hx : Editing s a x d text (.found send))
      (hst : send.2.state ≠ .pending) :
      Moved s (.work a reaches)
        (some (.replaceFailedPayload d.sendKey (withText send.2.payload text))) (s.finish a)
  -- `resolve_delete`
  | deleteNowhere {a : Nat} {x : Attempt} {d : Mutation} {reaches : Bool}
      (hx : Deleting s a x d .begun) (hc : s.canonical d = none) :
      Moved s (.work a reaches) none (s.finish a)
  | deleteLinked {a i : Nat} {x : Attempt} {d : Mutation} {reaches : Bool} {r : MessageLink}
      (hx : Deleting s a x d .begun) (hc : s.canonical d = some (i, r)) :
      Moved s (.work a reaches) none (s.setStage a (.linked r))
  | deleteCalled {a : Nat} {x : Attempt} {d : Mutation} {reaches : Bool} {r : MessageLink}
      {message : Int} (hx : Deleting s a x d (.linked r)) (hr : r.maxMessageId = some message) :
      Moved s (.work a reaches) none (s.callDelete a r.maxChatId message reaches)
  | deleteSent {a i : Nat} {x : Attempt} {d : Mutation} {reaches : Bool} {r : MessageLink}
      {send : OutboxItem} {message : Int} (hx : Deleting s a x d (.linked r))
      (hnone : r.maxMessageId = none)
      (hs : s.queue.outbox.bySourceKey d.sendKey = some (i, send)) (hst : send.state = .done)
      (hr : send.remoteMessageId = some message) :
      Moved s (.work a reaches) none (s.callDelete a r.maxChatId message reaches)
  | cancelled {a : Nat} {x : Attempt} {d : Mutation} {reaches : Bool} {send : Nat × OutboxItem}
      (hx : Deleting s a x d (.found send)) (hst : send.2.state = .pending) :
      Moved s (.work a reaches)
        (some (.cancelPending d.sendKey "cancelled: owner deleted before send"))
        (if s.queue.outbox.anyUnsent d.sendKey then s.finish a else s.postpone a)
  | archiveRead {a : Nat} {x : Attempt} {d : Mutation} {reaches : Bool} {send : Nat × OutboxItem}
      {r : OutboxItem} (hx : Deleting s a x d (.found send)) (hst : send.2.state ≠ .pending)
      (hr : s.queue.outbox.get? send.1 = some r)
      (hallows : (Outbox.Decision.archive deletedReason).allows r = true) :
      Moved s (.work a reaches) (some (.decide send.1 (.archive deletedReason)))
        (s.setStage a (.archiving send.1 r))
  | archiveGone {a : Nat} {x : Attempt} {d : Mutation} {reaches : Bool} {send : Nat × OutboxItem}
      (hx : Deleting s a x d (.found send)) (hst : send.2.state ≠ .pending)
      (hr : ∀ r, s.queue.outbox.get? send.1 = some r →
        (Outbox.Decision.archive deletedReason).allows r = false) :
      Moved s (.work a reaches) none (s.finish a)
  | archived {a index job : Nat} {x : Attempt} {read : OutboxItem}
      (hx : AtStage s a x (.archiving job read))
      (hd : s.queue.decisions[index]? = some (job, .archive deletedReason, read)) :
      Moved s (.archiveWrite a index) (some (.decideWrite index)) (s.finish a)
  -- either, by the job of the send
  | sendMissing {a : Nat} {x : Attempt} {d : Mutation} {reaches : Bool} {r : MessageLink}
      (hx : Asking s a x d r) (hs : s.queue.outbox.bySourceKey d.sendKey = none) :
      Moved s (.work a reaches) none (s.finish a)
  | sendFound {a : Nat} {x : Attempt} {d : Mutation} {reaches : Bool} {r : MessageLink}
      {send : Nat × OutboxItem} (hx : Asking s a x d r)
      (hs : s.queue.outbox.bySourceKey d.sendKey = some send)
      (hst : send.2.state = .pending ∨ send.2.state = .failed) :
      Moved s (.work a reaches) none (s.setStage a (.found send))
  | sendBusy {a : Nat} {x : Attempt} {d : Mutation} {reaches : Bool} {r : MessageLink}
      {send : Nat × OutboxItem} (hx : Asking s a x d r)
      (hs : s.queue.outbox.bySourceKey d.sendKey = some send) (hst : send.2.state = .inflight) :
      Moved s (.work a reaches) none (s.postpone a)
  | sendGone {a : Nat} {x : Attempt} {d : Mutation} {reaches : Bool} {r : MessageLink}
      {send : Nat × OutboxItem} (hx : Asking s a x d r)
      (hs : s.queue.outbox.bySourceKey d.sendKey = some send)
      (hst : send.2.state = .expired ∨ send.2.state = .archived ∨
        (send.2.state = .done ∧ send.2.remoteMessageId = none)) :
      Moved s (.work a reaches) none (s.finish a)
  | sendUnknown {a : Nat} {x : Attempt} {d : Mutation} {reaches : Bool} {r : MessageLink}
      {send : Nat × OutboxItem} {why : String} (hx : Asking s a x d r)
      (hs : s.queue.outbox.bySourceKey d.sendKey = some send) (hst : send.2.state = .ambiguous) :
      Moved s (.work a reaches) none (s.setStage a (.ended (.raised (.unconfirmedDelivery why))))
  -- either, when MAX has answered
  | confirmed {a : Nat} {x : Attempt} {reaches : Bool} (hx : AtStage s a x (.calling true)) :
      Moved s (.work a reaches) none (s.finish a)
  -- the other direction, and the aliases of albums
  | albums {e : Event} {albums : MediaGroups} (he : AlbumWrite s e albums) :
      Moved s e none { s.toWorld with albums }
  | map {e : Event} {map : MessageMap} (he : MapWrite s e map) :
      Moved s e none { s.toWorld with map }

/-! ### every move is one of them -/

section inversion

variable {s : State} {mv : Move}

theorem quiet_eq_some {w : World} (h : s.quiet w = some mv) : mv = (none, w) := by
  unfold State.quiet at h
  split at h
  · exact (Option.some.inj h).symm
  · cases h

theorem queued_eq_some {e : Queue.Event} {w : World} (h : queued e w = some mv) :
    mv = (some e, w) :=
  (Option.some.inj h).symm

/-- A move of the world alone under a guard. -/
theorem guarded_eq_some {guard : Bool} {w : World}
    (h : (if guard then s.quiet w else none) = some mv) : guard = true ∧ mv = (none, w) := by
  split at h
  · next hguard => exact ⟨hguard, quiet_eq_some h⟩
  · cases h

theorem ofPass_eq_some {p : Nat} {progress : Progress} {f : Pass → Option Move}
    (h : s.ofPass p progress f = some mv) :
    ∃ y, s.passes.get? p = some y ∧ y.progress = progress ∧ f y = some mv := by
  unfold State.ofPass at h
  split at h
  · next y hy =>
      split at h
      · next hp => exact ⟨y, hy, hp, h⟩
      · cases h
  · cases h

theorem ofSender_eq_some {a : Nat} {f : Attempt → Option Move}
    (h : s.ofSender a f = some mv) :
    ∃ x, s.queue.attempts.get? a = some x ∧ x.phase = .inSender ∧ f x = some mv := by
  unfold State.ofSender at h
  split at h
  · next x hx =>
      split at h
      · next hp => exact ⟨x, hx, hp, h⟩
      · cases h
  · cases h

theorem locate_moved {p : Nat} {y : Pass} (hy : s.passes.get? p = some y)
    (hp : y.progress = .locating) (h : s.locate p y = some mv) :
    Moved s (.locate p) mv.1 mv.2 := by
  unfold State.locate at h
  split at h
  · next link hlink =>
      obtain ⟨group, hg, hl⟩ := Option.bind_eq_some_iff.mp hlink
      obtain rfl := quiet_eq_some h
      exact .located hy hp hg hl
  · obtain rfl := quiet_eq_some h
    refine .passed rfl hy (by rw [hp]; rfl) (.inr ⟨.inl hp, ?_⟩)
    split
    · exact .inl rfl
    · exact .inr rfl

theorem locateHead_moved {p : Nat} {y : Pass} (hy : s.passes.get? p = some y)
    (hp : y.progress = .locatingHead) (h : s.locateHead p y = some mv) :
    Moved s (.locateHead p) mv.1 mv.2 := by
  unfold State.locateHead at h
  split at h
  · next link r hlink =>
      obtain ⟨account, ha, hl⟩ := Option.bind_eq_some_iff.mp hlink
      obtain rfl := quiet_eq_some h
      exact .locatedHead hy hp ha hl
  · obtain rfl := quiet_eq_some h
    exact .passed rfl hy (by rw [hp]; rfl) (.inr ⟨.inr hp, .inr rfl⟩)

theorem record_moved {p : Nat} {y : Pass} (hy : s.passes.get? p = some y)
    (hp : y.progress = .recording) (h : s.record p y = some mv) :
    Moved s (.record p) mv.1 mv.2 := by
  unfold State.record at h
  split at h
  · next map hm =>
      obtain rfl := quiet_eq_some h
      exact .recorded hy hp hm
  · obtain rfl := quiet_eq_some h
    exact .passed rfl hy (by rw [hp]; rfl) (.inl rfl)

theorem bind_moved {p : Nat} {y : Pass} (hy : s.passes.get? p = some y)
    (hp : y.progress = .binding) (h : s.bind p y = some mv) : Moved s (.bind p) mv.1 mv.2 := by
  unfold State.bind at h
  split at h
  · next group link hg hl =>
      obtain rfl := quiet_eq_some h
      exact .bound hy hp hg hl
  · cases h

theorem submit_moved {p : Nat} (h : s.move (.submit p) = some mv) :
    Moved s (.submit p) mv.1 mv.2 := by
  simp only [State.move] at h
  split at h
  · next y hy =>
      split at h
      · next index hp =>
          unfold State.submit at h
          split at h
          · next spec hspec =>
              obtain rfl := queued_eq_some h
              exact .submitted hy hp hspec
          · cases h
      · cases h
  · cases h

theorem resume_moved {p : Nat} (h : s.move (.resume p) = some mv) :
    Moved s (.resume p) mv.1 mv.2 := by
  simp only [State.move] at h
  split at h
  · next y hy =>
      split at h
      · next index a hp =>
          unfold State.resume at h
          split at h
          · next x hx =>
              split at h
              · cases h
              · next hover =>
                  obtain rfl := quiet_eq_some h
                  exact .resumed hy hp hx (by simpa using hover)
          · cases h
      · cases h
  · cases h

theorem passDies_moved {p : Nat} (h : s.move (.passDies p) = some mv) :
    Moved s (.passDies p) mv.1 mv.2 := by
  simp only [State.move] at h
  split at h
  · next y hy =>
      split at h
      · cases h
      · cases h
      · cases h
      · next hover hdead =>
          obtain rfl := quiet_eq_some h
          refine .passed rfl hy ?_ (.inl rfl)
          cases hp : y.progress <;> first | rfl | exact absurd hp hover | exact absurd hp hdead
  · cases h

theorem edit_moved {account message : Int} {text stripped fingerprint : String} {pts : Nat}
    (h : s.edit account message text pts fingerprint stripped = some mv) :
    Moved s (.edit account message text pts fingerprint stripped) mv.1 mv.2 := by
  unfold State.edit at h
  split at h
  · next target r ht =>
      dsimp only at h
      generalize hbody : (if r.sourceMarker = .fromMax then stripped else text) = body at h
      split at h
      · next hsame =>
          obtain rfl := queued_eq_some h
          refine .edited ht rfl rfl hbody.symm fun d' hd' hkey => ?_
          have hall := List.all_eq_true.mp hsame.2 d' hd'
          simpa [hkey, and_assoc] using hall
      · cases h
  · cases h

theorem delete_moved {account message : Int} (h : s.delete account message = some mv) :
    Moved s (.delete account message) mv.1 mv.2 := by
  unfold State.delete at h
  split at h
  · next d r ht =>
      obtain rfl := queued_eq_some h
      exact .deleted ht
  · cases h

theorem split_moved {a : Nat} {x : Attempt} (hx : s.queue.attempts.get? a = some x)
    (hp : x.phase = .inSender) (h : s.split a x = some mv) : Moved s (.split a) mv.1 mv.2 := by
  unfold State.split at h
  split at h
  · next text link htext hlink =>
      dsimp only at h
      split at h
      · next hall =>
          obtain ⟨hk, hs, hm, hlong⟩ := hall
          split at h
          · next r hr =>
              obtain rfl := queued_eq_some h
              exact .split ⟨hx, hp, hs⟩ hk hm htext hlink hlong hr
          · obtain rfl := quiet_eq_some h
            exact .splitLost ⟨hx, hp, hs⟩
      · cases h
  · cases h

theorem post_moved {a : Nat} {x : Attempt} {message : Int}
    (hx : s.queue.attempts.get? a = some x) (hp : x.phase = .inSender)
    (h : s.post a message x = some mv) : Moved s (.post a message) mv.1 mv.2 := by
  unfold State.post at h
  split at h
  · next chat hchat =>
      split at h
      · next hall =>
          obtain ⟨hk, hc, hm, hs, hfresh⟩ := hall
          obtain rfl := quiet_eq_some h
          exact .posted ⟨hx, hp, hs⟩ hk hc hm hfresh hchat
      · cases h
  · cases h

theorem answer_moved {a : Nat} {x : Attempt} (hx : s.queue.attempts.get? a = some x)
    (hp : x.phase = .inSender) (h : s.answer a x = some mv) : Moved s (.answer a) mv.1 mv.2 := by
  unfold State.answer at h
  split at h
  · next message hs =>
      split at h
      · next link hlink =>
          split at h
          · next map hm =>
              obtain rfl := quiet_eq_some h
              exact .answered ⟨hx, hp, hs⟩ hlink hm
          · obtain rfl := quiet_eq_some h
            exact .answerRefused ⟨hx, hp, hs⟩
      · next hlink =>
          obtain rfl := quiet_eq_some h
          exact .answeredPlain ⟨hx, hp, hs⟩ hlink
  · cases h

/-- What either resolver makes of the job of the send. -/
theorem ofSend_moved {a : Nat} {x : Attempt} {d : Mutation} {r : MessageLink} {what : String}
    {reaches : Bool} {call : Int → World} (hx : Asking s a x d r)
    (hcall : ∀ i send message, s.queue.outbox.bySourceKey d.sendKey = some (i, send) →
      send.state = .done → send.remoteMessageId = some message →
        Moved s (.work a reaches) none (call message)) :
    Moved s (.work a reaches) none
      (s.ofSend a what (s.queue.outbox.bySourceKey d.sendKey) call) := by
  cases hs : s.queue.outbox.bySourceKey d.sendKey with
  | none => exact .sendMissing hx hs
  | some send =>
      simp only [State.ofSend]
      cases hst : send.2.state with
      | pending => exact .sendFound hx hs (.inl hst)
      | failed => exact .sendFound hx hs (.inr hst)
      | inflight => exact .sendBusy hx hs hst
      | expired => exact .sendGone hx hs (.inl hst)
      | archived => exact .sendGone hx hs (.inr (.inl hst))
      | ambiguous => exact .sendUnknown hx hs hst
      | done =>
          cases hr : send.2.remoteMessageId with
          | none => exact .sendGone hx hs (.inr (.inr ⟨hst, hr⟩))
          | some message => exact hcall send.1 send.2 message hs hst hr

theorem workEdit_moved {a : Nat} {x : Attempt} {d : Mutation} {text : String} {reaches : Bool}
    (hx : ∀ stage, s.stage a = stage → Editing s a x d text stage)
    (h : s.workEdit a x d text reaches = some mv) : Moved s (.work a reaches) mv.1 mv.2 := by
  unfold State.workEdit at h
  split at h
  · next hs =>
      obtain rfl := quiet_eq_some h
      cases hd : s.queue.outbox.bySourceKey (deleteSourceKey d.account d.key) with
      | some found => exact .editOvertaken (hx _ hs) hd
      | none => exact .editChecked (hx _ hs) hd
  · next hs =>
      obtain rfl := quiet_eq_some h
      cases hc : s.canonical d with
      | none => exact .editNowhere (hx _ hs) hc
      | some found =>
          cases hr : found.2.maxMessageId with
          | none =>
              simp only [hr]
              exact .editLinked (hx _ hs) hc hr
          | some message =>
              simp only [hr]
              exact .editCalled (hx _ hs) hc hr
  · next r hs =>
      obtain rfl := quiet_eq_some h
      exact ofSend_moved (.inl ⟨text, hx _ hs⟩) fun i send message hsend hst hr =>
        .editSent (hx _ hs) hsend hst hr
  · next send hs =>
      split at h
      · next hst =>
          obtain rfl := queued_eq_some h
          exact .absorbed (hx _ hs) hst
      · next hst =>
          obtain rfl := queued_eq_some h
          exact .absorbedFailed (hx _ hs) hst
  · next hs =>
      obtain rfl := quiet_eq_some h
      exact .confirmed (hx _ hs).toAtStage
  · cases h

theorem workDelete_moved {a : Nat} {x : Attempt} {d : Mutation} {reaches : Bool}
    (hx : ∀ stage, s.stage a = stage → Deleting s a x d stage)
    (h : s.workDelete a d reaches = some mv) : Moved s (.work a reaches) mv.1 mv.2 := by
  unfold State.workDelete at h
  split at h
  · next hs =>
      obtain rfl := quiet_eq_some h
      cases hc : s.canonical d with
      | none => exact .deleteNowhere (hx _ hs) hc
      | some found => exact .deleteLinked (hx _ hs) hc
  · next r hs =>
      obtain rfl := quiet_eq_some h
      cases hr : r.maxMessageId with
      | some message => exact .deleteCalled (hx _ hs) hr
      | none =>
          exact ofSend_moved (.inr ⟨hx _ hs, hr⟩) fun i send message hsend hst hremote =>
            .deleteSent (hx _ hs) hr hsend hst hremote
  · next send hs =>
      split at h
      · next hst =>
          obtain rfl := queued_eq_some h
          exact .cancelled (hx _ hs) hst
      · next hst =>
          split at h
          · next r hr =>
              split at h
              · next hallows =>
                  obtain rfl := queued_eq_some h
                  exact .archiveRead (hx _ hs) hst hr hallows
              · next hallows =>
                  obtain rfl := quiet_eq_some h
                  refine .archiveGone (hx _ hs) hst fun r' hr' => ?_
                  rw [hr, Option.some.injEq] at hr'
                  exact hr' ▸ by simpa using hallows
          · next hr =>
              obtain rfl := quiet_eq_some h
              exact .archiveGone (hx _ hs) hst fun r' hr' => by rw [hr] at hr'; cases hr'
  · next hs =>
      obtain rfl := quiet_eq_some h
      exact .confirmed (hx _ hs).toAtStage
  · cases h

theorem work_moved {a : Nat} {x : Attempt} {reaches : Bool}
    (hx : s.queue.attempts.get? a = some x) (hp : x.phase = .inSender)
    (h : s.work a reaches x = some mv) : Moved s (.work a reaches) mv.1 mv.2 := by
  unfold State.work at h
  split at h
  · next d hd =>
      split at h
      · next hk =>
          obtain ⟨text, htext, hwork⟩ := Option.bind_eq_some_iff.mp h
          exact workEdit_moved (fun stage hs => ⟨⟨hx, hp, hs⟩, hk, hd, htext⟩) hwork
      · next hk => exact workDelete_moved (fun stage hs => ⟨⟨hx, hp, hs⟩, hk, hd⟩) h
      · cases h
  · cases h

theorem queue_moved {e : Queue.Event} (h : s.move (.queue e) = some mv) :
    Moved s (.queue e) mv.1 mv.2 := by
  simp only [State.move] at h
  split at h
  · next ha =>
      obtain rfl := queued_eq_some h
      exact .queue ha
  · cases h

theorem archiveWrite_moved {a index : Nat} {x : Attempt} (hx : s.queue.attempts.get? a = some x)
    (hp : x.phase = .inSender) (h : s.archiveWrite a index = some mv) :
    Moved s (.archiveWrite a index) mv.1 mv.2 := by
  unfold State.archiveWrite at h
  split at h
  · next job read hs =>
      split at h
      · next hd =>
          obtain rfl := queued_eq_some h
          exact .archived ⟨hx, hp, hs⟩ hd
      · cases h
  · cases h

theorem ownPart_moved {account peer grouped message : Int} {bridge : String}
    (h : s.move (.ownPart account peer grouped message bridge) = some mv) :
    Moved s (.ownPart account peer grouped message bridge) mv.1 mv.2 := by
  simp only [State.move] at h
  split at h
  · cases h
  · next hfree =>
      obtain rfl := quiet_eq_some h
      simp only [Bool.or_eq_true, not_or, Bool.not_eq_true] at hfree
      exact .albums (.owned hfree.1 hfree.2)

theorem seenPart_moved {part : Nat} {account message : Int}
    (h : s.move (.seenPart part account message) = some mv) :
    Moved s (.seenPart part account message) mv.1 mv.2 := by
  obtain ⟨hall, rfl⟩ := guarded_eq_some h
  simp only [Bool.and_eq_true, Option.any_eq_true, beq_iff_eq, Bool.not_eq_true'] at hall
  obtain ⟨⟨p, hp, hdir⟩, hw⟩ := hall
  exact .albums (.seen hp hdir hw)

theorem attachTelegram_moved {link : Nat} {message : Int}
    (h : s.move (.attachTelegram link message) = some mv) :
    Moved s (.attachTelegram link message) mv.1 mv.2 := by
  simp only [State.move] at h
  split at h
  · next map hm =>
      obtain rfl := quiet_eq_some h
      exact .map (.telegram hm)
  · cases h

/-- Both writes of the owner's side of a row of the other direction are guarded alike. -/
theorem ownerWrite_moved {e : Event} {link : Nat} {account message : Int} {map : MessageMap}
    (hwrite : s.fromMax link (fun _ => true) = true → s.ownerWrote account message = false →
      MapWrite s e map)
    (h : (if s.fromMax link (fun _ => true) && !s.ownerWrote account message then
      s.quiet { s.toWorld with map } else none) = some mv) : Moved s e mv.1 mv.2 := by
  obtain ⟨hall, rfl⟩ := guarded_eq_some h
  simp only [Bool.and_eq_true, Bool.not_eq_true'] at hall
  exact .map (hwrite hall.1 hall.2)

/-- **What an event is**: every move is one of the ways of `Moved`. -/
theorem move_moved {e : Event} (h : s.move e = some mv) : Moved s e mv.1 mv.2 := by
  cases e with
  | queue e => exact queue_moved h
  | crash =>
      obtain rfl := queued_eq_some h
      exact .crash
  | arrive m =>
      obtain ⟨hm, rfl⟩ := guarded_eq_some h
      exact .arrived hm
  | reply p =>
      obtain ⟨y, hy, hp, hreply⟩ := ofPass_eq_some h
      obtain rfl := quiet_eq_some hreply
      exact .replied hy hp
  | locate p =>
      obtain ⟨y, hy, hp, hf⟩ := ofPass_eq_some h
      exact locate_moved hy hp hf
  | locateHead p =>
      obtain ⟨y, hy, hp, hf⟩ := ofPass_eq_some h
      exact locateHead_moved hy hp hf
  | record p =>
      obtain ⟨y, hy, hp, hf⟩ := ofPass_eq_some h
      exact record_moved hy hp hf
  | bind p =>
      obtain ⟨y, hy, hp, hf⟩ := ofPass_eq_some h
      exact bind_moved hy hp hf
  | file p =>
      obtain ⟨y, hy, hp, hf⟩ := ofPass_eq_some h
      obtain rfl := queued_eq_some hf
      exact .filed hy hp
  | submit p => exact submit_moved h
  | resume p => exact resume_moved h
  | passDies p => exact passDies_moved h
  | edit account message text pts fingerprint stripped => exact edit_moved h
  | delete account message => exact delete_moved h
  | split a =>
      obtain ⟨x, hx, hp, hf⟩ := ofSender_eq_some h
      exact split_moved hx hp hf
  | post a message =>
      obtain ⟨x, hx, hp, hf⟩ := ofSender_eq_some h
      exact post_moved hx hp hf
  | answer a =>
      obtain ⟨x, hx, hp, hf⟩ := ofSender_eq_some h
      exact answer_moved hx hp hf
  | work a reaches =>
      obtain ⟨x, hx, hp, hf⟩ := ofSender_eq_some h
      exact work_moved hx hp hf
  | archiveWrite a index =>
      obtain ⟨x, hx, hp, hf⟩ := ofSender_eq_some h
      exact archiveWrite_moved hx hp hf
  | ownPart account peer grouped message bridge => exact ownPart_moved h
  | expectPart link index bridge bot =>
      obtain ⟨-, rfl⟩ := guarded_eq_some h
      exact .albums .expected
  | seenPart part account message => exact seenPart_moved h
  | claimMax target message telegramChat fingerprint =>
      obtain rfl := quiet_eq_some h
      exact .map .claimed
  | attachTelegram link message => exact attachTelegram_moved h
  | attachOwner link account message => exact ownerWrite_moved .owner h
  | bindOwner link account message => exact ownerWrite_moved .bound h
  | clearLink link =>
      obtain ⟨hf, rfl⟩ := guarded_eq_some h
      exact .albums (.cleared hf)
  | forget link =>
      obtain ⟨hf, rfl⟩ := guarded_eq_some h
      exact .map (.forgotten hf)

end inversion

/-! ## runs of the queue -/

/-- The event of the queue that an event is. -/
def State.queueEvent? (s : State) (e : Event) : Option Queue.Event := (s.move e).bind (·.1)

/-- What the queue does under an event: nothing, or a step of its own. -/
def QueueAfter (s t : State) : Option Queue.Event → Prop
  | none => t.queue = s.queue
  | some qe => Queue.step s.queue qe = some t.queue

/-- **One event**: a way it can go, the world it leaves, and a step of the queue. -/
theorem step_moved {s t : State} {e : Event} (h : step s e = some t) :
    Moved s e (s.queueEvent? e) t.toWorld ∧ QueueAfter s t (s.queueEvent? e) := by
  unfold step at h
  split at h
  · next qe w hm =>
      obtain ⟨queue, hq, rfl⟩ := Option.map_eq_some_iff.mp h
      have hqe : s.queueEvent? e = some qe := by simp [State.queueEvent?, hm]
      exact ⟨hqe ▸ move_moved hm, by rw [hqe]; exact hq⟩
  · next w hm =>
      obtain rfl := Option.some.inj h
      have hqe : s.queueEvent? e = none := by simp [State.queueEvent?, hm]
      exact ⟨hqe ▸ move_moved hm, by rw [hqe]; exact rfl⟩
  · cases h

/-! ## the senders -/

/-- The attempt whose sender this event is a step of. -/
def Event.sender? : Event → Option Nat
  | .split a | .post a _ | .answer a | .work a _ | .archiveWrite a _
  | .queue (.settle a _ _) | .queue (.sendingLost a) => some a
  | _ => none

/-- An event leaves the senders of all other attempts where they stand. -/
theorem Moved.stage_eq {s : State} {w : World} {e : Event} {qe : Option Queue.Event}
    (h : Moved s e qe w) {a : Nat} (ha : e.sender? ≠ some a) : w.stage a = s.stage a := by
  have hother : ∀ {b : Nat} (stage : Stage), e.sender? = some b →
      Function.update s.stage b stage a = s.stage a := by
    intro b stage hb
    exact Function.update_of_ne (by rintro rfl; exact ha hb) _ _
  cases h with
  | queue =>
      unfold State.afterQueue
      split
      · exact hother _ rfl
      · exact hother _ rfl
      · rfl
  | absorbed | cancelled =>
      split <;> exact hother _ rfl
  | split | splitLost | posted | answered | answeredPlain | answerRefused | editOvertaken
  | editChecked | editNowhere | editLinked | editCalled | editSent | absorbedFailed
  | deleteNowhere | deleteLinked | deleteCalled | deleteSent | archiveRead | archiveGone
  | archived | sendMissing | sendFound | sendBusy | sendGone | sendUnknown | confirmed =>
      exact hother _ rfl
  | _ => rfl

/-- An attempt that is no longer where it began has entered its sender. -/
def Entered (s : State) : Prop :=
  ∀ a, s.stage a ≠ .begun → ∃ x, s.queue.attempts.get? a = some x ∧ x.phase.mayHaveFired = true

/-- A sender's step is a step of an attempt in its sender. -/
theorem sender_inSender {s t : State} {e : Event} (h : step s e = some t) {a : Nat}
    (ha : e.sender? = some a) :
    ∃ x, s.queue.attempts.get? a = some x ∧ x.phase = .inSender := by
  have hqueue : ∀ qe, s.queueEvent? e = some qe →
      ((∃ o b, qe = .settle a o b) ∨ qe = .sendingLost a) →
      ∃ x, s.queue.attempts.get? a = some x ∧ x.phase = .inSender := by
    intro qe hqe hkind
    have hq := (step_moved h).2
    rw [hqe] at hq
    have hup : Queue.stepUp s.queue qe = some t.queue := by
      rcases Queue.step_cases hq with ⟨_, rfl, -⟩ | ⟨rfl, -⟩ | ⟨-, hup⟩ | ⟨-, hstart⟩
      · rcases hkind with ⟨o, b, hk⟩ | hk <;> cases hk
      · rcases hkind with ⟨o, b, hk⟩ | hk <;> cases hk
      · exact hup
      · rcases hkind with ⟨o, b, rfl⟩ | rfl <;> cases hstart
    rcases hkind with ⟨o, b, rfl⟩ | rfl
    all_goals
      obtain ⟨x, hx, hp, -⟩ := Queue.State.ofPhase_eq_some hup
      exact ⟨x, hx, hp⟩
  have hmove : ∀ f, s.move e = s.ofSender a f →
      ∃ x, s.queue.attempts.get? a = some x ∧ x.phase = .inSender := by
    intro f hf
    unfold step at h
    rw [hf] at h
    cases hm : s.ofSender a f with
    | none => simp [hm] at h
    | some mv =>
        obtain ⟨x, hx, hp, -⟩ := ofSender_eq_some hm
        exact ⟨x, hx, hp⟩
  cases e with
  | split b | post b message | answer b | work b reaches | archiveWrite b index =>
      cases ha
      exact hmove _ rfl
  | queue qe =>
      have hqe : s.queueEvent? (.queue qe) = some qe := by
        unfold step at h
        simp only [State.queueEvent?, State.move] at h ⊢
        split
        · rfl
        · next hno => simp [hno] at h
      cases qe with
      | settle b o backoff =>
          cases ha
          exact hqueue _ hqe (.inl ⟨o, backoff, rfl⟩)
      | sendingLost b =>
          cases ha
          exact hqueue _ hqe (.inr rfl)
      | _ => cases ha
  | _ => cases ha

/-- What becomes of an attempt under an event of the whole system. -/
theorem attempt_kept {s t : State} {e : Event} (h : step s e = some t) {a : Nat} {x : Attempt}
    (hx : s.queue.attempts.get? a = some x) :
    ∃ y, t.queue.attempts.get? a = some y ∧ (y = x ∨ ∃ qe, s.queueEvent? e = some qe ∧
      Queue.AttemptChange s.queue t.queue a x qe y) := by
  have hq := (step_moved h).2
  cases hqe : s.queueEvent? e with
  | none =>
      rw [hqe] at hq
      exact ⟨x, by rw [show t.queue = s.queue from hq]; exact hx, .inl rfl⟩
  | some qe =>
      rw [hqe] at hq
      obtain ⟨y, hy, hc⟩ := (Queue.step_after hq).attempt_kept hx
      exact ⟨y, hy, .inr ⟨qe, rfl, hc⟩⟩

theorem Entered.step {s t : State} {e : Event} (hs : Entered s) (h : step s e = some t) :
    Entered t := by
  intro a hstage
  have hfrom : ∃ x, s.queue.attempts.get? a = some x ∧ x.phase.mayHaveFired = true := by
    by_cases ha : e.sender? = some a
    · obtain ⟨x, hx, hp⟩ := sender_inSender h ha
      exact ⟨x, hx, by rw [hp]; rfl⟩
    · exact hs a (by rwa [(step_moved h).1.stage_eq ha] at hstage)
  obtain ⟨x, hx, hp⟩ := hfrom
  obtain ⟨y, hy, rfl | ⟨qe, -, hc⟩⟩ := attempt_kept h hx
  · exact ⟨y, hy, hp⟩
  · exact ⟨y, hy, (hc.mayHaveFired hp).2⟩

/-! ## the mapping -/

/-- How a mapping row changes. -/
inductive LinkChange (s : State) (i : Nat) (r : MessageLink) : Event → MessageLink → Prop
  | same {e : Event} : LinkChange s i r e r
  | telegram {e : Event} {message : Int} (hfree : r.telegramMessageId = none) :
      LinkChange s i r e { r with telegramMessageId := some message }
  | owner {e : Event} {account message : Int} (hf : r.sourceMarker = .fromMax)
      (hw : s.ownerWrote account message = false) :
      LinkChange s i r e
        { r with telegramOwnerMessageId := some message, telegramOwnerAccountId := some account }
  | answered {a : Nat} {x : Attempt} {message link : Int}
      (hx : AtStage s a x (.created message)) (hlink : x.spec.payload.int? "link_id" = some link)
      (hi : link.toNat = i) (hfree : r.maxMessageId = none ∨ r.maxMessageId = some message) :
      LinkChange s i r (.answer a) { r with maxMessageId := some message }

/-- How a mapping row appears. -/
inductive LinkBorn (s : State) (i : Nat) : Event → MessageLink → Prop
  | claimed {e : Event} {target : BridgeTarget} {message telegramChat : Int}
      {fingerprint : Option String} :
      LinkBorn s i e (newClaim target.name target.maxChatId message target.botId telegramChat
        fingerprint s.queue.now)
  | recorded {p : Nat} {y : Pass} (hy : s.passes.get? p = some y)
      (hp : y.progress = .recording) (hi : i = s.map.next) :
      LinkBorn s i (.record p) (newRecord y.message.intake s.queue.now)

/-- A mapping row after an event: kept, released, or born. -/
def LinkAfter (s : State) (w : World) (e : Event) (i : Nat) : Prop :=
  match s.map.get? i with
  | some r =>
      (∃ r', w.map.get? i = some r' ∧ LinkChange s i r e r') ∨
        (w.map.get? i = none ∧ r.sourceMarker = .fromMax ∧ delivered r = false)
  | none => ∀ r', w.map.get? i = some r' → LinkBorn s i e r'

section mapping

variable {s : State} {w : World} {e : Event} {i : Nat}

theorem LinkAfter.of_same (hw : w.map = s.map) : LinkAfter s w e i := by
  unfold LinkAfter
  rw [hw]
  split
  · next r hr => exact .inl ⟨r, hr, .same⟩
  · next hr =>
      intro r' h
      simp [hr] at h

theorem LinkAfter.of_insert {r : MessageLink} (hw : w.map = s.map.insert r)
    (hborn : ∀ j, j = s.map.next → LinkBorn s j e r) : LinkAfter s w e i := by
  unfold LinkAfter
  rw [hw]
  split
  · next r' hr' =>
      have hne : i ≠ s.map.next := Nat.ne_of_lt (Table.lt_next hr')
      exact .inl ⟨r', by rw [Table.get?_insert, if_neg hne, hr'], .same⟩
  · next hnone =>
      intro r' h
      rw [Table.get?_insert, hnone] at h
      split at h
      · next hi =>
          cases h
          exact hborn i hi
      · cases h

theorem LinkAfter.of_update (p : Nat → MessageLink → Bool) (f : MessageLink → MessageLink)
    (hc : ∀ r, s.map.get? i = some r → p i r = true → LinkChange s i r e (f r))
    (hw : ∀ j, w.map.get? j = (s.map.get? j).map fun r => if p j r then f r else r) :
    LinkAfter s w e i := by
  unfold LinkAfter
  split
  · next r hr =>
      cases hp : p i r with
      | true => exact .inl ⟨f r, by rw [hw, hr]; simp [hp], hc r hr hp⟩
      | false => exact .inl ⟨r, by rw [hw, hr]; simp [hp], .same⟩
  · next hnone =>
      intro r' h
      simp [hw, hnone] at h

/-- A row of the mapping that the other direction may write. -/
theorem fromMax_marker {link : Nat} {p : MessageLink → Bool} (h : s.fromMax link p = true)
    {r : MessageLink} (hr : s.map.get? link = some r) : r.sourceMarker = .fromMax ∧ p r = true := by
  simpa [State.fromMax, hr] using h

theorem MapWrite.after {map : MessageMap} (h : MapWrite s e map) (hw : w.map = map) :
    LinkAfter s w e i := by
  cases h with
  | @claimed target message telegramChat fingerprint =>
      generalize hnew : newClaim target.name target.maxChatId message target.botId telegramChat
        fingerprint s.queue.now = new at hw
      unfold claimFromMax at hw
      split at hw
      · next map hmap =>
          refine .of_insert (hw.trans (tryInsert_eq_some hmap)) fun j _ => ?_
          rw [← hnew]
          exact .claimed
      · exact .of_same hw
  | @telegram link message map hm =>
      refine .of_update (fun j r => j == link && r.telegramMessageId.isNone)
        (fun r => { r with telegramMessageId := some message }) (fun r _ hj => ?_) fun j => ?_
      · obtain ⟨-, hfree⟩ := Bool.and_eq_true_iff.mp hj
        exact .telegram (Option.isNone_iff_eq_none.mp hfree)
      · rw [hw]
        exact tryUpdate_get? hm j
  | @owner link account message hf hwrote =>
      refine .of_update (fun j _ => j == link) (fun r =>
        { r with telegramOwnerMessageId := some message, telegramOwnerAccountId := some account })
        (fun r hr hj => ?_) fun j => ?_
      · obtain rfl : i = link := by simpa using hj
        exact .owner (fromMax_marker hf hr).1 hwrote
      · rw [hw, attachOwnerMessage, Table.modify, Table.get?_update]
  | @bound link account message hf hwrote =>
      refine .of_update _ _ (fun r hr hj => ?_) fun j => by
        rw [hw, bindOwnerMessage, Table.get?_update]
      obtain ⟨hi, -⟩ := Bool.and_eq_true_iff.mp hj
      obtain rfl : i = link := by simpa using hi
      exact .owner (fromMax_marker hf hr).1 hwrote
  | @forgotten link hf =>
      unfold LinkAfter
      rw [hw, forget, Table.get?_delete]
      split
      · next r hr =>
          by_cases hi : i = link
          · subst hi
            have hmark := fromMax_marker hf hr
            exact .inr ⟨by simp [hr], hmark.1, by simpa using hmark.2⟩
          · exact .inl ⟨r, by simp [hr, hi], .same⟩
      · next hr =>
          intro r' h
          simp [hr] at h

/-- **A mapping row after an event.** -/
theorem Moved.link {qe : Option Queue.Event} (h : Moved s e qe w) (i : Nat) :
    LinkAfter s w e i := by
  cases h with
  | recorded hy hp hm =>
      exact .of_insert (tryInsert_eq_some hm) fun j hj => .recorded hy hp hj
  | @answered a x message link map hx hlink hm =>
      refine .of_update (fun j r => j == link.toNat &&
          (r.maxMessageId.isNone || r.maxMessageId == some message))
        (fun r => { r with maxMessageId := some message }) (fun r hr hj => ?_) fun j => ?_
      · simp only [Bool.and_eq_true, beq_iff_eq, Bool.or_eq_true, Option.isNone_iff_eq_none] at hj
        exact .answered hx hlink hj.1.symm hj.2
      · exact tryUpdate_get? hm j
  | map he => exact he.after rfl
  | queue =>
      refine .of_same ?_
      unfold State.afterQueue
      split <;> rfl
  | absorbed | cancelled =>
      refine .of_same ?_
      split <;> rfl
  | _ => exact .of_same rfl

end mapping

/-! ## the passes -/

/-- How a pass comes by its mapping row. -/
inductive RowGiven (s : State) (p : Nat) (y : Pass) : Event → Nat → Prop
  | located {link : Nat} {group : String} (hp : y.progress = .locating)
      (hg : y.message.album = some group) (hl : s.albums.linkOf group = some link) :
      RowGiven s p y (.locate p) link
  | locatedHead {link : Nat} {account : Int} {r : MessageLink} (hp : y.progress = .locatingHead)
      (ha : y.message.account = some account)
      (hl : s.map.byOwnerAccountMessage account y.message.messageId = some (link, r)) :
      RowGiven s p y (.locateHead p) link
  | recorded {map : MessageMap} (hp : y.progress = .recording)
      (hm : s.map.recordFromTelegram y.message.intake s.queue.now = some map) :
      RowGiven s p y (.record p) s.map.next

/-- How a pass goes on. -/
inductive PassChange (s : State) (p : Nat) (y : Pass) :
    Event → Option Queue.Event → Pass → Prop
  | same {e : Event} {qe : Option Queue.Event} : PassChange s p y e qe y
  | replied {reply : Option Int} {progress : Progress} (hp : y.progress = .replying)
      (hnew : progress = .locating ∨ progress = .recording) :
      PassChange s p y (.reply p) none { y with reply, progress }
  | mapped {e : Event} {link : Nat} (hl : RowGiven s p y e link) :
      PassChange s p y e none (y.mapped link)
  | aside {e : Event} {progress : Progress} (hrun : y.progress.running = true)
      (hnew : progress = .dead ∨ Unfound y.progress progress) :
      PassChange s p y e none { y with progress }
  | bound (hp : y.progress = .binding) :
      PassChange s p y (.bind p) none { y with progress := .turn 0 }
  | filed (hp : y.progress = .filing) :
      PassChange s p y (.file p) (some (.enqueueBatch y.parts)) { y with progress := .turn 0 }
  | submitted {index : Nat} {spec : JobSpec} (hp : y.progress = .turn index)
      (hspec : y.parts[index]? = some spec) :
      PassChange s p y (.submit p) (some (.submit spec y.message.barrier))
        { y with progress := .waiting index s.queue.attempts.next }
  | resumed {index a : Nat} {x : Attempt} (hp : y.progress = .waiting index a)
      (hx : s.queue.attempts.get? a = some x) (hover : x.phase.running = false) :
      PassChange s p y (.resume p) none { y with progress := afterPart y index x (s.stage a) }
  | crashed : PassChange s p y .crash (some .crash) { y with progress := .dead }

/-- A pass after an event: gone on from what it was, or new. -/
def PassAfter (s : State) (w : World) (e : Event) (qe : Option Queue.Event) (p : Nat) : Prop :=
  match s.passes.get? p with
  | some y => ∃ y', w.passes.get? p = some y' ∧ PassChange s p y e qe y'
  | none => ∀ y', w.passes.get? p = some y' →
      ∃ m, e = .arrive m ∧ s.admits m = true ∧ y' = .begin m

section passes

variable {s : State} {w : World} {e : Event} {qe : Option Queue.Event} {p : Nat}

theorem setPass_passes (s : State) (p : Nat) (f : Pass → Pass) :
    (s.setPass p f).passes = s.passes.modify p f := rfl

theorem setProgress_passes (s : State) (p : Nat) (progress : Progress) :
    (s.setProgress p progress).passes = s.passes.modify p fun y => { y with progress } := rfl

theorem PassAfter.of_same (hw : w.passes = s.passes) : PassAfter s w e qe p := by
  unfold PassAfter
  rw [hw]
  split
  · next y hy => exact ⟨y, hy, .same⟩
  · next hy =>
      intro y' h
      simp [hy] at h

theorem PassAfter.of_modify {q : Nat} {y : Pass} {f : Pass → Pass}
    (hy : s.passes.get? q = some y) (hw : w.passes = s.passes.modify q f)
    (hc : PassChange s q y e qe (f y)) : PassAfter s w e qe p := by
  unfold PassAfter
  rw [hw]
  by_cases hp : p = q
  · subst hp
    rw [hy, Table.get?_modify_self, hy]
    exact ⟨f y, rfl, hc⟩
  · rw [Table.get?_modify_ne _ _ hp]
    split
    · next y' hy' => exact ⟨y', hy', .same⟩
    · next hy' =>
        intro y'' h
        simp [hy'] at h

/-- **A pass after an event.** -/
theorem Moved.pass (h : Moved s e qe w) (p : Nat) : PassAfter s w e qe p := by
  cases h with
  | crash =>
      unfold PassAfter
      split
      · next y hy =>
          simp only [State.crash, Table.get?_update, hy, Option.map_some, Option.some.injEq,
            exists_eq_left']
          split
          · exact .crashed
          · exact .same
      · next hy =>
          intro y' h
          simp [State.crash, Table.get?_update, hy] at h
  | @arrived m hm =>
      unfold PassAfter
      split
      · next y hy =>
          exact ⟨y, by rw [Table.get?_insert, if_neg (Table.lt_next hy).ne, hy], .same⟩
      · next hy =>
          intro y' h
          rw [Table.get?_insert, hy] at h
          split at h
          · cases h
            exact ⟨m, rfl, hm, rfl⟩
          · cases h
  | replied hy hp =>
      refine .of_modify hy (setPass_passes _ _ _) (.replied hp ?_)
      split
      · exact .inl rfl
      · exact .inr rfl
  | located hy hp hg hl =>
      exact .of_modify hy (setPass_passes _ _ _) (.mapped (.located hp hg hl))
  | locatedHead hy hp ha hl =>
      exact .of_modify hy (setPass_passes _ _ _) (.mapped (.locatedHead hp ha hl))
  | @recorded p' y map hy hp hm =>
      exact .of_modify hy (setPass_passes s p' fun _ => y.mapped s.map.next)
        (.mapped (.recorded hp hm))
  | bound hy hp => exact .of_modify hy (setProgress_passes _ _ _) (.bound hp)
  | filed hy hp => exact .of_modify hy (setProgress_passes _ _ _) (.filed hp)
  | submitted hy hp hspec =>
      exact .of_modify hy (setProgress_passes _ _ _) (.submitted hp hspec)
  | resumed hy hp hx hover => exact .of_modify hy (setProgress_passes _ _ _) (.resumed hp hx hover)
  | passed he hy hrun hnew => exact .of_modify hy (setProgress_passes _ _ _) (.aside hrun hnew)
  | queue =>
      refine .of_same ?_
      unfold State.afterQueue
      split <;> rfl
  | absorbed | cancelled =>
      refine .of_same ?_
      split <;> rfl
  | _ => exact .of_same rfl

end passes

end Telemax.Owner
