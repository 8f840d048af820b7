import JobPlatform.Runtime.OutboxLedger

/-!
Contract: who may do what to an event of the outbox.

Owns:
- `Pending`, an event that a thread has claimed and not yet tried to send, and `Entitled`, what a
  thread must know before it runs a statement;
- `Consistent`, the invariant of the world, and its preservation by every call that is `Allowed`;
- `duties`, the discipline of the dispatchers: what concerns the tokens of a thread is left alone by
  the others.
-/

namespace JobPlatform.Runtime

open JobPlatform.Foundation JobPlatform.Foundation.ThreadSystem JobPlatform.Store
open JobPlatform.Store.Repository (newEvent)

namespace OutboxWorld

/-- The thread claimed the event under the token, and has neither sent nor marked it. -/
structure Pending (t : ThreadId) (w : OutboxWorld) (eventId claimToken : Uuid) : Prop where
  own : (t, claimToken) ∈ w.drawn
  claimed : claimToken ∈ claimTokens w.history eventId
  unsent : (eventId, claimToken) ∉ w.sent
  untried : (eventId, claimToken) ∉ w.unsent
  unmarked : ¬ MarkedUnder w.history eventId claimToken

/-- A claim is made under a token of the thread that no transaction has used, an event is marked as
published after its send, and as failed if it was not sent or its publication raised. -/
def Entitled (t : ThreadId) (w : OutboxWorld) : OutboxStatement → Prop
  | .claimOutboxEvents _ _ claimToken => (t, claimToken) ∈ w.drawn ∧
      ∀ statement now replaced, .committed statement now replaced ∈ w.history →
        statement.token ≠ claimToken
  | .markOutboxPublished eventId claimToken => (t, claimToken) ∈ w.drawn ∧
      (eventId, claimToken) ∈ w.sent
  | .markOutboxFailed eventId claimToken _ => (t, claimToken) ∈ w.drawn ∧
      ((eventId, claimToken) ∈ w.sent →
        .raised (.markOutboxPublished eventId claimToken) ∈ w.history)

/-- What a thread may call. -/
def Allowed (t : ThreadId) (w : OutboxWorld) : WireCall → Prop
  | .sql call => w.Entitled t call.statement
  | .platform (.sendMessage origin _) => ∃ eventId claimToken,
      origin = some (eventId, claimToken) ∧ w.Pending t eventId claimToken
  | _ => True

/-- The rows are sound and agree with the history, and so do the sends; no token was drawn twice,
and every statement has a token that was drawn. -/
structure Consistent (w : OutboxWorld) : Prop where
  sound : w.versions.Sound outboxUpdates
  recorded : Recorded w.versions.latest w.versions.history
  accounted : Accounted w.versions.latest w.versions.history w.sent w.unsent
  orderly : Orderly w.versions.latest w.versions.history w.sent w.unsent
  distinct : (w.drawn.map Prod.snd).Nodup
  owned : ∀ entry ∈ w.versions.history, entry.statement.token ∈ w.drawn.map Prod.snd

/-- What a thread may rely on: the others leave alone what is under its tokens, and nobody but the
server ends its transaction. -/
structure Later (t : ThreadId) (w after : OutboxWorld) : Prop where
  drawn : w.drawn ⊆ after.drawn
  session : after.versions.sessions t = w.versions.sessions t ∨ after.versions.sessions t = none
  entries : ∀ {claimToken}, (t, claimToken) ∈ w.drawn →
    ∀ entry : CommitEntry OutboxStatement OutboxRow Time, entry.statement.token = claimToken →
      (entry ∈ after.history ↔ entry ∈ w.history)
  sends : ∀ {claimToken}, (t, claimToken) ∈ w.drawn → ∀ eventId,
    ((eventId, claimToken) ∈ after.sent ↔ (eventId, claimToken) ∈ w.sent) ∧
      ((eventId, claimToken) ∈ after.unsent ↔ (eventId, claimToken) ∈ w.unsent)

section Invariant

variable {w after last : OutboxWorld} {t u : ThreadId} {statement : OutboxStatement}

theorem Entitled.own (entitled : w.Entitled t statement) : (t, statement.token) ∈ w.drawn := by
  cases statement with
  | claimOutboxEvents => exact entitled.1
  | markOutboxPublished => exact entitled.1
  | markOutboxFailed => exact entitled.1

/-- A token has one owner. -/
theorem Consistent.owner (consistent : w.Consistent) {token : Uuid} (one : (t, token) ∈ w.drawn)
    (other : (u, token) ∈ w.drawn) : t = u := by
  have same := List.inj_on_of_nodup_map consistent.distinct one other rfl
  exact congrArg Prod.fst same

theorem consistent_initial : initial.Consistent where
  sound := Versions.sound_initial nofun
  recorded := ⟨nofun, fun _ => rfl, fun _ => rfl, fun isPart => by
    simp [Versions.initial, initial] at isPart⟩
  accounted := ⟨List.nodup_nil, fun tried => by rcases tried with sent | unsent <;> contradiction,
    nofun⟩
  orderly := ⟨fun _ _ _ => nofun, fun _ _ _ _ => nofun, fun _ _ _ _ _ => nofun⟩
  distinct := List.nodup_nil
  owned := nofun

/-- A step of a transaction keeps the invariant. -/
theorem Consistent.sql (consistent : w.Consistent) {call : RowCall OutboxStatement Uuid}
    {reply : Except Exn (call.Result OutboxRow)}
    {versions : Versions OutboxStatement Uuid OutboxRow Time}
    (entitled : w.Entitled t call.statement)
    (ran : outboxUpdates.Exec Exn t w.versions call reply versions) :
    ({ w with versions } : OutboxWorld).Consistent := by
  have sound := consistent.sound.exec ran
  have owned : ∀ entry ∈ versions.history, entry.statement.token ∈ w.drawn.map Prod.snd := by
    obtain ⟨more, isHistory, added⟩ := ran.grows
    rw [isHistory]
    intro entry member
    rcases List.mem_append.mp member with old | new
    · exact consistent.owned entry old
    · rw [added entry new]
      exact List.mem_map.mpr ⟨_, entitled.own, rfl⟩
  cases ran.outcome consistent.sound with
  | quiet rows history =>
      refine ⟨sound, ?_, ?_, ?_, consistent.distinct, owned⟩
      · exact rows ▸ history ▸ consistent.recorded
      · exact rows ▸ history ▸ consistent.accounted
      · exact rows ▸ history ▸ consistent.orderly
  | raised error rows history =>
      have lost : ∀ entry ∈ [(CommitEntry.raised call.statement :
          CommitEntry OutboxStatement OutboxRow Time)], entry = .raised call.statement :=
        fun entry member => List.mem_singleton.mp member
      refine ⟨sound, ?_, ?_, ?_, consistent.distinct, owned⟩
      · exact rows ▸ history ▸ consistent.recorded.lose lost
      · exact rows ▸ history ▸ consistent.accounted.lose lost
      · exact rows ▸ history ▸ consistent.orderly.lose lost
  | @committed session _ isOpen update history =>
      obtain ⟨lost, isHistory, isLost⟩ := history
      have split : versions.history = (w.versions.history ++
          [.committed session.statement session.now (w.versions.replaced outboxUpdates session)]) ++
            lost := by
        rw [isHistory, List.append_assoc]
        rfl
      have entitled : w.Entitled t session.statement := entitled
      refine ⟨sound, ?_, ?_, ?_, consistent.distinct, owned⟩
      · dsimp only
        rw [split]
        exact (consistent.recorded.commit update).lose isLost
      · dsimp only
        rw [split]
        refine (consistent.accounted.commit update fun eventId claimToken isMark => ?_).lose isLost
        rw [isMark] at entitled
        exact entitled.2
      · dsimp only
        rw [split]
        refine (consistent.orderly.commit consistent.recorded update
          fun eventId claimToken error isMark => ?_).lose isLost
        rw [isMark] at entitled
        exact entitled.2

/-- Every allowed call keeps the invariant. -/
theorem Consistent.perform (consistent : w.Consistent) {c : WireCall} {reply : wire.Reply c}
    (allowed : w.Allowed t c) (performed : w.Perform t c reply after) : after.Consistent := by
  cases performed with
  | @drew token fresh =>
      refine ⟨consistent.sound, consistent.recorded, consistent.accounted, consistent.orderly, ?_,
        fun entry member => ?_⟩
      · rw [List.map_append]
        refine List.nodup_append.mpr ⟨consistent.distinct, List.nodup_singleton _, ?_⟩
        intro old member new isNew same
        rw [List.map_singleton, List.mem_singleton] at isNew
        exact fresh (by rw [← show old = token from same.trans isNew]; exact member)
      · rw [List.map_append]
        exact List.mem_append_left _ (consistent.owned entry member)
  | sql ran => exact consistent.sql allowed ran
  | sent =>
      obtain ⟨eventId, claimToken, rfl, pending⟩ := allowed
      exact ⟨consistent.sound, consistent.recorded,
        consistent.accounted.send pending.claimed pending.unsent,
        consistent.orderly.send consistent.recorded pending.claimed pending.unmarked pending.unsent,
        consistent.distinct, consistent.owned⟩
  | unsent error =>
      obtain ⟨eventId, claimToken, rfl, pending⟩ := allowed
      exact ⟨consistent.sound, consistent.recorded, consistent.accounted.fail pending.claimed,
        consistent.orderly.fail _, consistent.distinct, consistent.owned⟩
  | recorded => exact consistent

theorem Consistent.env (consistent : w.Consistent) (moved : w.Env after) : after.Consistent := by
  cases moved with
  | @created eventId jobId correlationId now new =>
      refine ⟨consistent.sound.setLatest ?_ ?_, consistent.recorded.created new _ _ _,
        consistent.accounted.created _ _ _ _, consistent.orderly.created new _,
        consistent.distinct, consistent.owned⟩
      · intro other event found
        rw [Function.update_apply] at found
        split at found
        next same =>
          cases found
          exact same.symm
        next => exact consistent.sound.keyed found
      · intro u session other isSession isChosen
        obtain ⟨_, event, found, _⟩ := (consistent.sound.valid isSession).chosen other isChosen
        rw [Function.update_of_ne]
        rintro rfl
        cases new.symm.trans found
  | disconnected t =>
      exact ⟨consistent.sound.ended, consistent.recorded, consistent.accounted, consistent.orderly,
        consistent.distinct, consistent.owned⟩

theorem Later.refl (t : ThreadId) (w : OutboxWorld) : Later t w w :=
  ⟨fun _ member => member, .inl rfl, fun _ _ _ => .rfl, fun _ _ => ⟨.rfl, .rfl⟩⟩

theorem Later.trans (first : Later t w after) (second : Later t after last) : Later t w last where
  drawn _ member := second.drawn (first.drawn member)
  session := by
    rcases second.session with same | ended
    · rw [same]
      exact first.session
    · exact .inr ended
  entries own entry isToken :=
    (second.entries (first.drawn own) entry isToken).trans (first.entries own entry isToken)
  sends own eventId :=
    ⟨((second.sends (first.drawn own) eventId).1).trans (first.sends own eventId).1,
      ((second.sends (first.drawn own) eventId).2).trans (first.sends own eventId).2⟩

/-- The others' calls are under their own tokens. -/
theorem later_of_perform (consistent : w.Consistent) {c : WireCall} {reply : wire.Reply c}
    (allowed : w.Allowed t c) (performed : w.Perform t c reply after) (apart : u ≠ t) :
    Later u w after := by
  cases performed with
  | drew =>
      exact ⟨List.subset_append_left _ _, .inl rfl, fun _ _ _ => .rfl, fun _ _ => ⟨.rfl, .rfl⟩⟩
  | @sql call _ versions ran =>
      have entitled : w.Entitled t call.statement := allowed
      have foreign : ∀ {token}, (u, token) ∈ w.drawn → call.statement.token ≠ token := by
        rintro _ own rfl
        exact apart (consistent.owner own entitled.own)
      refine ⟨fun _ member => member, .inl (ran.sessions_of_ne apart), ?_,
        fun _ _ => ⟨.rfl, .rfl⟩⟩
      intro token own entry isToken
      obtain ⟨more, isHistory, added⟩ := ran.grows
      change entry ∈ versions.history ↔ entry ∈ w.versions.history
      rw [isHistory, List.mem_append]
      refine or_iff_left fun new => ?_
      exact foreign own ((congrArg OutboxStatement.token (added entry new)).symm.trans isToken)
  | sent =>
      obtain ⟨eventId, claimToken, rfl, pending⟩ := allowed
      refine ⟨fun _ member => member, .inl rfl, fun _ _ _ => .rfl, fun own other => ⟨?_, .rfl⟩⟩
      refine List.mem_append.trans (or_iff_left fun new => ?_)
      cases List.mem_singleton.mp new
      exact apart (consistent.owner own pending.own)
  | unsent error =>
      obtain ⟨eventId, claimToken, rfl, pending⟩ := allowed
      refine ⟨fun _ member => member, .inl rfl, fun _ _ _ => .rfl, fun own other => ⟨.rfl, ?_⟩⟩
      refine List.mem_append.trans (or_iff_left fun new => ?_)
      cases List.mem_singleton.mp new
      exact apart (consistent.owner own pending.own)
  | recorded => exact .refl u w

theorem later_of_env (moved : w.Env after) (u : ThreadId) : Later u w after := by
  cases moved with
  | created =>
      exact ⟨fun _ member => member, .inl rfl, fun _ _ _ => .rfl, fun _ _ => ⟨.rfl, .rfl⟩⟩
  | disconnected t =>
      refine ⟨fun _ member => member, ?_, fun _ _ _ => .rfl, fun _ _ => ⟨.rfl, .rfl⟩⟩
      by_cases same : u = t
      · subst same
        exact .inr (Function.update_self _ _ _)
      · exact .inl (Function.update_of_ne same _ _)

theorem Entitled.later (entitled : w.Entitled t statement) (later : Later t w after) :
    after.Entitled t statement := by
  have own := later.drawn entitled.own
  cases statement with
  | claimOutboxEvents limit leaseSeconds claimToken =>
      refine ⟨own, fun statement now replaced member isToken => ?_⟩
      exact entitled.2 statement now replaced
        ((later.entries entitled.1 (.committed statement now replaced) isToken).mp member) isToken
  | markOutboxPublished eventId claimToken =>
      exact ⟨own, (later.sends entitled.1 eventId).1.mpr entitled.2⟩
  | markOutboxFailed eventId claimToken error =>
      refine ⟨own, fun sent => ?_⟩
      have raised := entitled.2 ((later.sends entitled.1 eventId).1.mp sent)
      exact (later.entries entitled.1 (.raised (.markOutboxPublished eventId claimToken)) rfl).mpr
        raised

theorem Pending.later {eventId claimToken : Uuid} (pending : w.Pending t eventId claimToken)
    (later : Later t w after) : after.Pending t eventId claimToken where
  own := later.drawn pending.own
  claimed := by
    obtain ⟨limit, leaseSeconds, now, replaced, member, inReplaced⟩ :=
      mem_claimTokens.mp pending.claimed
    have still := (later.entries pending.own (.committed (.claimOutboxEvents limit leaseSeconds
      claimToken) now replaced) rfl).mpr member
    exact mem_claimTokens.mpr ⟨limit, leaseSeconds, now, replaced, still, inReplaced⟩
  unsent isSent := pending.unsent ((later.sends pending.own eventId).1.mp isSent)
  untried isUnsent := pending.untried ((later.sends pending.own eventId).2.mp isUnsent)
  unmarked marked := by
    obtain ⟨statement, now, replaced, member, marks, some⟩ := marked
    have before := (later.entries pending.own (.committed statement now replaced)
      marks.isToken).mp member
    exact pending.unmarked ⟨statement, now, replaced, before, marks, some⟩

end Invariant

/-- The discipline of the dispatchers. -/
def duties : Discipline dispatchers where
  inv := Consistent
  pre t w c := w.Allowed t c
  rely := Later
  rely_refl := Later.refl
  rely_trans := Later.trans
  exec_inv consistent allowed performed := consistent.perform allowed performed
  exec_rely consistent allowed performed _ apart :=
    later_of_perform consistent allowed performed apart
  env_inv consistent moved := consistent.env moved
  env_rely _ moved := later_of_env moved

end OutboxWorld

end JobPlatform.Runtime
