import JobPlatform.Runtime.TimedActs
import JobPlatform.Runtime.Invariants

/-!
Contract: runs of the timed world.

Owns:
- `Run`, the runs whose steps all satisfy a condition, and `play`, which runs a list of events;
- `Sound`, the invariant of every run: handles and times lie in the past, the tokens of the workers
  are drawn and apart, and a job whose message may be deleted is completed.
-/

namespace JobPlatform.Runtime

open JobPlatform.Foundation JobPlatform.Store
open JobPlatform.Store.Repository (ClaimedJob)

namespace TimedWorld

/-! ### Runs -/

/-- A run all of whose steps are allowed. -/
inductive Run (setup : Setup) (Allowed : TimedWorld → TimedEvent → TimedWorld → Prop)
    (first : TimedWorld) : TimedWorld → Prop where
  | start : Run setup Allowed first first
  | step {world after : TimedWorld} {event : TimedEvent} (ran : Run setup Allowed first world)
      (steps : world.step setup event = some after) (allowed : Allowed world event after) :
      Run setup Allowed first after

/-- Any step. -/
def Anything (_ : TimedWorld) (_ : TimedEvent) (_ : TimedWorld) : Prop := True

instance (world : TimedWorld) (event : TimedEvent) (after : TimedWorld) :
    Decidable (Anything world event after) := .isTrue trivial

section Runs

variable {setup : Setup} {Allowed : TimedWorld → TimedEvent → TimedWorld → Prop}
  {first middle last : TimedWorld}

/-- What holds first and is kept by every allowed step holds last. -/
theorem Run.keeps {P : TimedWorld → Prop} (ran : Run setup Allowed first last) (start : P first)
    (kept : ∀ {world event after}, P world → world.Moves setup event after →
      Allowed world event after → P after) : P last := by
  induction ran with
  | start => exact start
  | step _ steps allowed inductionHypothesis =>
      exact kept inductionHypothesis (moves_of_step steps) allowed

theorem Run.trans (ran : Run setup Allowed first middle) (rest : Run setup Allowed middle last) :
    Run setup Allowed first last := by
  induction rest with
  | start => exact ran
  | step _ steps allowed inductionHypothesis => exact .step inductionHypothesis steps allowed

/-- Run a list of events, as long as they are allowed. -/
def play (setup : Setup) (Allowed : TimedWorld → TimedEvent → TimedWorld → Prop)
    [∀ world event after, Decidable (Allowed world event after)] :
    List TimedEvent → TimedWorld → Option TimedWorld
  | [], world => some world
  | event :: events, world =>
      (world.step setup event).bind fun after =>
        (require (Allowed world event after) after).bind (play setup Allowed events)

theorem run_of_play [∀ world event after, Decidable (Allowed world event after)]
    {events : List TimedEvent} (plays : play setup Allowed events first = some last) :
    Run setup Allowed first last := by
  induction events generalizing first with
  | nil =>
      cases plays
      exact .start
  | cons event events inductionHypothesis =>
      obtain ⟨after, steps, plays⟩ := Option.bind_eq_some_iff.mp plays
      obtain ⟨other, isAfter, plays⟩ := Option.bind_eq_some_iff.mp plays
      obtain ⟨allowed, rfl⟩ := require_eq_some.mp isAfter
      exact (Run.step .start steps allowed).trans (inductionHypothesis plays)

end Runs

end TimedWorld

/-! ### The invariant of every run -/

/-- The hand belongs to the world: its message was received and names its job, its times have
passed, its claim was drawn, and a job whose message it may delete is completed. -/
structure Hand.Sound (world : TimedWorld) (hand : Hand) : Prop where
  receipt : hand.receiptHandle < world.nextMessage
  names : ∀ entry ∈ world.queue, entry.id = hand.receiptHandle → Names entry.body hand.jobId
  renewedAt : hand.renewedAt ≤ world.now
  extendedAt : hand.extendedAt ≤ world.now
  claim : ∀ job, hand.stage.claim? = some job →
    job.id = hand.jobId ∧ job.processingToken ∈ world.drawn
  settled : (hand.stage = .duplicate ∨ ∃ job, hand.stage = .completed job) →
    world.db.Completed hand.jobId

namespace TimedWorld

/-- No two workers have a claim with the same token. -/
def Apart (world : TimedWorld) : Prop :=
  ∀ {worker other : Nat} {hand otherHand : Hand} {job otherJob : ClaimedJob},
    world.hand? worker = some hand → world.hand? other = some otherHand →
      hand.stage.claim? = some job → otherHand.stage.claim? = some otherJob →
        job.processingToken = otherJob.processingToken → worker = other

/-- Every message has its own number. -/
structure Numbered (world : TimedWorld) : Prop where
  below : ∀ entry ∈ world.queue, entry.id < world.nextMessage
  unique : ∀ left ∈ world.queue, ∀ right ∈ world.queue, left.id = right.id → left = right

/-- Every message is numbered, every hand belongs to the world, and tokens are apart. -/
structure Sound (world : TimedWorld) : Prop where
  numbered : world.Numbered
  hands : ∀ {worker : Nat} {hand : Hand}, world.hand? worker = some hand → hand.Sound world
  apart : world.Apart

/-- The second world comes after the first. -/
structure Later (world after : TimedWorld) : Prop where
  now : world.now ≤ after.now
  nextMessage : world.nextMessage ≤ after.nextMessage
  drawn : world.drawn ⊆ after.drawn
  completed : ∀ jobId, world.db.Completed jobId → after.db.Completed jobId
  messages : ∀ entry ∈ after.queue, entry.id < world.nextMessage →
    ∃ old ∈ world.queue, entry.toMessage = old.toMessage

variable {world after : TimedWorld}

/-- Only time and the queue changed, and every message was there before. -/
theorem later_of_queue (now : world.now ≤ after.now)
    (nextMessage : after.nextMessage = world.nextMessage)
    (drawn : after.drawn = world.drawn) (db : after.db = world.db)
    (messages : ∀ entry ∈ after.queue, ∃ old ∈ world.queue, entry.toMessage = old.toMessage) :
    world.Later after where
  now := now
  nextMessage := Nat.le_of_eq nextMessage.symm
  drawn := by rw [drawn]; exact List.Subset.refl _
  completed jobId completed := by rwa [db]
  messages entry member _ := messages entry member

theorem Numbered.enqueue (numbered : world.Numbered) (messageBody : Json) :
    (world.enqueue messageBody).Numbered := by
  have cases : ∀ {entry}, entry ∈ (world.enqueue messageBody).queue →
      entry ∈ world.queue ∨ entry = ⟨⟨world.nextMessage, messageBody⟩, world.now, 0⟩ := by
    intro entry member
    exact (List.mem_append.mp member).imp_right List.mem_singleton.mp
  have apart : ∀ entry ∈ world.queue, entry.id ≠ world.nextMessage :=
    fun entry member => Nat.ne_of_lt (numbered.below entry member)
  constructor
  · intro entry member
    rcases cases member with old | rfl
    · exact Nat.lt_succ_of_lt (numbered.below entry old)
    · exact Nat.lt_succ_self _
  · intro left inLeft right inRight same
    rcases cases inLeft with oldLeft | rfl <;> rcases cases inRight with oldRight | rfl
    · exact numbered.unique left oldLeft right oldRight same
    · exact absurd same (apart left oldLeft)
    · exact absurd same.symm (apart right oldRight)
    · rfl

theorem Numbered.adjust (numbered : world.Numbered) (receiptHandle : ReceiptHandle)
    {change : QueuedMessage → QueuedMessage}
    (fixed : ∀ entry, (change entry).toMessage = entry.toMessage) :
    (world.adjust receiptHandle change).Numbered := by
  constructor
  · intro entry member
    obtain ⟨old, inQueue, same, _⟩ := mem_adjust fixed member
    rw [same]
    exact numbered.below old inQueue
  · intro left inLeft right inRight same
    obtain ⟨oldLeft, leftIn, leftId, isLeft⟩ := mem_adjust fixed inLeft
    obtain ⟨oldRight, rightIn, rightId, isRight⟩ := mem_adjust fixed inRight
    rw [leftId, rightId] at same
    obtain rfl := numbered.unique oldLeft leftIn oldRight rightIn same
    rcases isLeft with ⟨here, rfl⟩ | ⟨apart, rfl⟩ <;> rcases isRight with ⟨there, rfl⟩ | ⟨other, rfl⟩
    · rfl
    · exact absurd here other
    · exact absurd there apart
    · rfl

theorem Numbered.remove (numbered : world.Numbered) (receiptHandle : ReceiptHandle) :
    (world.remove receiptHandle).Numbered :=
  ⟨fun entry member => numbered.below entry (mem_remove.mp member).1,
    fun left inLeft right inRight =>
      numbered.unique left (mem_remove.mp inLeft).1 right (mem_remove.mp inRight).1⟩

theorem later_of_request (request : Request) : world.Later (world.transact request) where
  now := le_refl _
  nextMessage := Nat.le_refl _
  drawn := List.subset_append_left _ _
  completed jobId completed := by
    rcases request.outcome world.db with ⟨_, _, unchanged⟩ | ⟨_, _, effect⟩
    · change (request.after world.db).Completed jobId
      rwa [unchanged]
    · exact completed.effect effect
  messages entry member _ := ⟨entry, member, rfl⟩

theorem later_of_draw (more : List Uuid) :
    world.Later { world with drawn := world.drawn ++ more } :=
  ⟨le_refl _, Nat.le_refl _, List.subset_append_left _ _, fun _ => id,
    fun entry member _ => ⟨entry, member, rfl⟩⟩

end TimedWorld

theorem Hand.Sound.later {world after : TimedWorld} {hand : Hand} (sound : hand.Sound world)
    (later : world.Later after) : hand.Sound after where
  receipt := Nat.lt_of_lt_of_le sound.receipt later.nextMessage
  names entry member isHandle := by
    obtain ⟨old, inQueue, same⟩ := later.messages entry member (isHandle ▸ sound.receipt)
    rw [same] at isHandle ⊢
    exact sound.names old inQueue isHandle
  renewedAt := sound.renewedAt.trans later.now
  extendedAt := sound.extendedAt.trans later.now
  claim job claim := ⟨(sound.claim job claim).1, later.drawn (sound.claim job claim).2⟩
  settled done := later.completed _ (sound.settled done)

namespace TimedWorld

section Sound

variable {world after : TimedWorld} {setup : Setup} {worker : Nat} {hand : Hand}

/-- A world whose workers hold what they held. -/
theorem Sound.later (sound : world.Sound) (later : world.Later after)
    (hands : after.hands = world.hands) (numbered : after.Numbered) : after.Sound := by
  have same : ∀ other, after.hand? other = world.hand? other := fun other => by
    unfold hand?
    rw [hands]
  refine ⟨numbered, fun holds => ?_, fun holds otherHolds => ?_⟩
  · exact (sound.hands ((same _).symm.trans holds)).later later
  · exact sound.apart ((same _).symm.trans holds) ((same _).symm.trans otherHolds)

/-- One worker goes on with a hand that belongs to the world, and whose claim no other worker has. -/
theorem Sound.setHand (sound : world.Sound) {next : Option Hand}
    (own : ∀ kept, next = some kept → kept.Sound world)
    (apart : ∀ {kept job}, next = some kept → kept.stage.claim? = some job →
      ∀ {other otherHand otherJob}, other ≠ worker → world.hand? other = some otherHand →
        otherHand.stage.claim? = some otherJob → otherJob.processingToken ≠ job.processingToken) :
    (world.setHand worker next).Sound := by
  have later : world.Later (world.setHand worker next) :=
    later_of_queue (le_refl _) rfl rfl rfl fun entry member => ⟨entry, member, rfl⟩
  refine ⟨⟨sound.numbered.below, sound.numbered.unique⟩, fun holds => ?_,
    fun holds otherHolds claim otherClaim same => ?_⟩
  · rcases hand?_setHand holds with ⟨_, isNext⟩ | ⟨_, held⟩
    · exact (own _ isNext).later later
    · exact (sound.hands held).later later
  · rcases hand?_setHand holds with ⟨rfl, isNext⟩ | ⟨other, held⟩ <;>
      rcases hand?_setHand otherHolds with ⟨rfl, otherNext⟩ | ⟨others, otherHeld⟩
    · rfl
    · exact absurd same.symm (apart isNext claim others otherHeld otherClaim)
    · exact absurd same (apart otherNext otherClaim other held claim)
    · exact sound.apart held otherHeld claim otherClaim same

/-- A worker keeps its claim. -/
theorem Sound.apart_of_claim (sound : world.Sound) (holds : world.hand? worker = some hand)
    {kept : Hand} (same : ∀ job, kept.stage.claim? = some job → hand.stage.claim? = some job) :
    ∀ {job}, kept.stage.claim? = some job →
      ∀ {other otherHand otherJob}, other ≠ worker → world.hand? other = some otherHand →
        otherHand.stage.claim? = some otherJob → otherJob.processingToken ≠ job.processingToken :=
  fun claim _ _ _ others otherHolds otherClaim isToken =>
    others (sound.apart otherHolds holds otherClaim (same _ claim) isToken)

theorem Sound.request (sound : world.Sound) (request : Request) :
    (world.transact request).Sound :=
  sound.later (later_of_request request) rfl ⟨sound.numbered.below, sound.numbered.unique⟩

theorem Sound.adjust (sound : world.Sound) (receiptHandle : ReceiptHandle)
    {change : QueuedMessage → QueuedMessage}
    (fixed : ∀ entry, (change entry).toMessage = entry.toMessage) :
    (world.adjust receiptHandle change).Sound := by
  refine sound.later (later_of_queue (le_refl _) rfl rfl rfl fun entry member => ?_) rfl
    (sound.numbered.adjust receiptHandle fixed)
  obtain ⟨old, inQueue, same, _⟩ := mem_adjust fixed member
  exact ⟨old, inQueue, same⟩

theorem Sound.remove (sound : world.Sound) (receiptHandle : ReceiptHandle) :
    (world.remove receiptHandle).Sound :=
  sound.later (later_of_queue (le_refl _) rfl rfl rfl fun entry member =>
    ⟨entry, (mem_remove.mp member).1, rfl⟩) rfl (sound.numbered.remove receiptHandle)

/-- The call of a worker keeps the invariant. -/
theorem Sound.acts (sound : world.Sound) (holds : world.hand? worker = some hand)
    {call : WorkerCall} (acts : world.Acts setup worker hand call after) : after.Sound := by
  have own := sound.hands holds
  have later : ∀ request, hand.Sound (world.transact request) :=
    fun request => own.later (later_of_request request)
  cases acts with
  | @acquired inputs faults job stage fresh granted =>
      obtain ⟨isJob, isToken, _⟩ := World.row_of_grant (Request.effect granted)
      have drawn : job.processingToken ∈ world.drawn ++
          (world.claimRequest setup hand inputs faults).drawn := by
        rw [isToken]
        exact List.mem_append_right _ (List.mem_ofFn.mpr ⟨0, rfl⟩)
      have new : job.processingToken ∉ world.drawn := by
        rw [isToken]
        exact fresh.new 0
      refine (sound.request _).setHand ?_ ?_
      · rintro kept ⟨⟩
        refine ⟨(later _).receipt, (later _).names, (later _).renewedAt, (later _).extendedAt, ?_, ?_⟩
        · rintro claimed ⟨⟩
          exact ⟨isJob, drawn⟩
        · rintro (isDuplicate | ⟨_, isCompleted⟩)
          · cases isDuplicate
          · cases isCompleted
      · rintro kept claimed ⟨⟩ ⟨⟩ other otherHand otherJob _ otherHolds otherClaim isToken
        exact new (isToken ▸ ((sound.hands otherHolds).claim otherJob otherClaim).2)
  | refused stage fresh refusal =>
      refine (sound.request _).setHand ?_ ?_
      · rintro kept ⟨⟩
        refine ⟨(later _).receipt, (later _).names, (later _).renewedAt, (later _).extendedAt, ?_, ?_⟩
        · rintro job ⟨⟩
        · rintro (isDuplicate | ⟨_, isCompleted⟩)
          · cases isDuplicate
          · cases isCompleted
      · rintro kept job ⟨⟩ ⟨⟩
  | duplicate stage fresh read completed =>
      refine (sound.request _).setHand ?_ ?_
      · rintro kept ⟨⟩
        refine ⟨(later _).receipt, (later _).names, (later _).renewedAt, (later _).extendedAt, ?_, ?_⟩
        · rintro job ⟨⟩
        · exact fun _ => World.completed_of_read (Request.effect read) completed
      · rintro kept job ⟨⟩ ⟨⟩
  | inProgress =>
      refine (sound.request _).setHand ?_ ?_
      · rintro kept ⟨⟩
      · rintro kept job ⟨⟩
  | renewed claim fresh returned =>
      refine (sound.request _).setHand ?_ ?_
      · rintro kept ⟨⟩
        exact ⟨(later _).receipt, (later _).names, le_refl _, (later _).extendedAt, (later _).claim,
          (later _).settled⟩
      · rintro kept job ⟨⟩
        exact sound.apart_of_claim holds fun _ => id
  | extended phase inFlight =>
      have adjusted : (world.adjust hand.receiptHandle fun entry =>
          { entry with visibleAt := world.now + interval setup.visibilityTimeoutSeconds }).Sound :=
        sound.adjust _ fun _ => rfl
      refine adjusted.setHand ?_ ?_
      · rintro kept ⟨⟩
        refine ⟨own.receipt, fun entry member isHandle => ?_, own.renewedAt, le_refl _, own.claim,
          own.settled⟩
        obtain ⟨old, inQueue, same, _⟩ := mem_adjust (by intro _; rfl) member
        rw [same] at isHandle ⊢
        exact own.names old inQueue isHandle
      · rintro kept job ⟨⟩
        exact sound.apart_of_claim holds fun _ => id
  | @completed reportId inputs faults job stage fresh returned =>
      have claim : hand.stage.claim? = some job := by
        rw [stage]
        rfl
      have isId := (own.claim _ claim).1
      refine (sound.request _).setHand ?_ ?_
      · rintro kept ⟨⟩
        refine ⟨(later _).receipt, (later _).names, (later _).renewedAt, (later _).extendedAt, ?_, ?_⟩
        · rintro job ⟨⟩
          exact (later _).claim _ claim
        · exact fun _ => isId ▸ World.completed_of_completion (Request.effect returned)
      · rintro kept job ⟨⟩
        refine sound.apart_of_claim holds ?_
        rintro job ⟨⟩
        exact claim
  | failed =>
      refine (sound.request _).setHand ?_ ?_
      · rintro kept ⟨⟩
      · rintro kept job ⟨⟩
  | deleted =>
      refine (sound.remove hand.receiptHandle).setHand ?_ ?_
      · rintro kept ⟨⟩
      · rintro kept job ⟨⟩
  | @troubled call more next trouble keeps =>
      have drawn := sound.later (later_of_draw more) rfl
        ⟨sound.numbered.below, sound.numbered.unique⟩
      have later := own.later (later_of_draw more)
      refine drawn.setHand (fun kept isKept => ?_) fun isKept => ?_
      · have retains := keeps kept isKept
        refine ⟨?_, ?_, ?_, ?_, ?_, ?_⟩
        · exact retains.receiptHandle ▸ later.receipt
        · rw [retains.receiptHandle, retains.jobId]
          exact later.names
        · exact retains.renewedAt ▸ later.renewedAt
        · exact retains.extendedAt ▸ later.extendedAt
        · exact fun job claim => retains.jobId ▸ later.claim job (retains.claim claim)
        · exact fun done => retains.jobId ▸ later.settled (retains.settled done)
      · exact sound.apart_of_claim holds fun _ => (keeps _ isKept).claim

/-- Every event keeps the invariant. -/
theorem Sound.moves (sound : world.Sound) {event : TimedEvent}
    (moves : world.Moves setup event after) :
    after.Sound := by
  cases moves with
  | passed ahead =>
      exact sound.later (later_of_queue ahead rfl rfl rfl fun entry member =>
        ⟨entry, member, rfl⟩) rfl ⟨sound.numbered.below, sound.numbered.unique⟩
  | sent =>
      refine sound.later ⟨le_refl _, Nat.le_succ _, List.Subset.refl _, fun _ => id, ?_⟩ rfl
        (sound.numbered.enqueue _)
      intro entry member below
      rcases List.mem_append.mp member with old | new
      · exact ⟨entry, old, rfl⟩
      · rw [List.mem_singleton.mp new] at below
        exact absurd below (Nat.lt_irrefl _)
  | committed => exact sound.request _
  | @received worker receiptHandle entry found idle visible within =>
      obtain ⟨inQueue, rfl⟩ := entry?_eq_some found
      have read : ∀ kept, world.receipt entry.toMessage = some kept →
          ∃ jobId, Names entry.body jobId ∧
            kept = ⟨entry.id, jobId, .received, .waiting, world.now, world.now⟩ := by
        intro kept isKept
        unfold receipt at isKept
        split at isKept
        next jobId names =>
          cases isKept
          exact ⟨jobId, names, rfl⟩
        next => cases isKept
      have adjusted : (world.adjust entry.id fun entry =>
          { entry with
            visibleAt := world.now + interval setup.queueVisibilitySeconds
            receives := entry.receives + 1 }).Sound := sound.adjust _ fun _ => rfl
      refine adjusted.setHand ?_ ?_
      · intro kept isKept
        obtain ⟨jobId, names, rfl⟩ := read kept isKept
        refine ⟨sound.numbered.below entry inQueue, ?_, le_refl _, le_refl _, ?_, ?_⟩
        · intro other member isHandle
          obtain ⟨old, isOld, same, _⟩ := mem_adjust (by intro _; rfl) member
          rw [same] at isHandle ⊢
          rw [sound.numbered.unique old isOld entry inQueue isHandle]
          exact names
        · rintro job ⟨⟩
        · rintro (isDuplicate | ⟨_, isCompleted⟩)
          · cases isDuplicate
          · cases isCompleted
      · intro kept job isKept claim
        obtain ⟨jobId, _, rfl⟩ := read kept isKept
        cases claim
  | deadLettered =>
      exact sound.later (later_of_queue (le_refl _) rfl rfl rfl fun entry member =>
        ⟨entry, (mem_remove.mp member).1, rfl⟩) rfl
          ⟨(sound.numbered.remove _).below, (sound.numbered.remove _).unique⟩
  | worked holds acts => exact sound.acts holds acts

theorem hand?_opening (workers worker : Nat) (start : Time) :
    (opening workers start).hand? worker = none := by
  unfold opening hand?
  dsimp only
  rw [List.getElem?_replicate]
  split <;> rfl

theorem sound_opening (workers : Nat) (start : Time) : (opening workers start).Sound := by
  refine ⟨⟨by simp [opening], by simp [opening]⟩, fun holds => ?_, fun holds => ?_⟩
  · rw [hand?_opening] at holds
    cases holds
  · rw [hand?_opening] at holds
    cases holds

/-- The invariant of a run from the start. -/
theorem sound_of_run {Allowed : TimedWorld → TimedEvent → TimedWorld → Prop} {workers : Nat}
    {start : Time} (ran : Run setup Allowed (opening workers start) world) : world.Sound :=
  ran.keeps (sound_opening workers start) fun sound moves _ => sound.moves moves

end Sound

end TimedWorld

end JobPlatform.Runtime
