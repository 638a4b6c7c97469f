import TitanClaw.Swarm.Node

/-! # Results from peers

A node that sends a task to a peer registers a waiter under the task's id. A result that comes
over the network becomes an event, and the event resolves the waiter that is registered under
the id in it. The message knows who published it; the event and the waiter do not, and nothing
on the way compares that peer with the one the task was assigned to. -/

namespace TitanClaw.Swarm

open Agent List Option AList Table Run

/-! ## The router -/

structure SwarmRemoteResult where
  success : Bool
  output : String
  durationMs : Nat
  deriving DecidableEq

/-- A waiter, with the state of its channel. The peer that its task went to is kept here for the
record, but no step reads it. -/
structure PendingWaiter where
  expiresAt : Nat
  receiverDropped : Bool := false
  assignee : String

inductive SwarmRouterError where
  | saturated (maxPending : Nat)

abbrev SwarmResultRouter := Table String PendingWaiter

namespace SwarmResultRouter

def maxPendingWaiters : Nat := 4096

variable (pending : SwarmResultRouter)

def cleanupExpired (now : Nat) : SwarmResultRouter :=
  pending.retain fun _ waiter => decide (now < waiter.expiresAt)

def register (taskId assignee : String) (timeout now : Nat) :
    Except SwarmRouterError SwarmResultRouter :=
  let pending := pending.cleanupExpired now
  if maxPendingWaiters ≤ pending.entries.length then .error (.saturated maxPendingWaiters)
  else .ok (pending.insert taskId { expiresAt := now + timeout, assignee })

/-- The waiter that the result is sent to, and the router without it. -/
def resolve (taskId : String) : Option PendingWaiter × SwarmResultRouter :=
  (pending.lookup taskId, pending.erase taskId)

end SwarmResultRouter

structure PeerState where
  availableSlots : Nat
  capabilities : List String

def PeerState.offers (peer : PeerState) (capability : String) : Bool :=
  0 < peer.availableSlots && peer.capabilities.contains capability

variable (peers : Table String PeerState) (capability : String)

def hasCapability : Bool := peers.entries.any (·.2.offers capability)

/-- More slots first; among equals the one whose name comes first. -/
def comparePeers (a b : (_ : String) × PeerState) : Ordering :=
  (compare a.2.availableSlots b.2.availableSlots).then (compare b.1 a.1)

def selectPeer : Option String :=
  let best := (peers.entries.filter (·.2.offers capability)).foldl
    (fun best peer =>
      match best with
      | none => some peer
      | some other => some (if comparePeers other peer = .gt then other else peer))
    none
  best.map (·.1)

/-! ## The node that waits -/

inductive SwarmMessage where
  | heartbeat (nodeId : String) (availableSlots : Nat) (capabilities : List String)
  | taskAssignment (task : SwarmTask)
  | taskResult (result : TaskResult)
  | taskQuery (taskId : String)

inductive SwarmEvent where
  | incomingTask (task : SwarmTask)
  | taskCompleted (result : TaskResult)

def SwarmEvent.resolves (taskId : String) : SwarmEvent → Bool
  | incomingTask _ => false
  | taskCompleted result => result.taskId == taskId

/-- An event on its way to the application. The publisher of the message that it was made from
is kept here for the record. -/
structure QueuedEvent where
  event : SwarmEvent
  source : Option String

/-- A result that has reached a waiter. -/
structure Received where
  taskId : String
  assignee : String
  source : Option String
  result : SwarmRemoteResult
  deriving DecidableEq

structure SwarmOrigin where
  nodeId : String
  peers : Table String PeerState := ∅
  seenTasks : Table String Nat := ∅
  events : List QueuedEvent := []
  pending : SwarmResultRouter := ∅
  received : List Received := []

inductive OriginStep where
  /-- A message comes over the network, with the peer that has signed it. -/
  | message (source : Option String) (message : SwarmMessage) (order : Table.Iteration String Nat)
      (now : Nat)
  | peerExpired (peer : String)
  /-- The application takes the next event. -/
  | nextEvent
  /-- A subtask looks for a peer and registers its waiter, and then sends the task. -/
  | offload (taskId capability : String) (timeout now : Nat)
  /-- The wait of a subtask is over. -/
  | dropReceiver (taskId : String)
  | cleanup (now : Nat)

namespace SwarmOrigin

variable (s : SwarmOrigin) (source : Option String)

def onMessage (message : SwarmMessage)
    (order : Table.Iteration String Nat) (now : Nat) : SwarmOrigin :=
  match message with
  | .taskAssignment task =>
      let (accepted, seenTasks) := shouldAcceptIncomingTask s.nodeId task s.seenTasks order now
      { s with
        seenTasks
        events := if accepted then s.events ++ [⟨.incomingTask task, source⟩] else s.events }
  | .taskResult result => { s with events := s.events ++ [⟨.taskCompleted result, source⟩] }
  | .heartbeat _ availableSlots capabilities =>
      match source with
      | some peer => { s with peers := s.peers.insert peer ⟨availableSlots, capabilities⟩ }
      | none => s
  | .taskQuery _ => s

/-- The result goes to the waiter under the id, if one is there and still listens. -/
def onCompleted (result : TaskResult) : SwarmOrigin :=
  let (waiter, pending) := s.pending.resolve result.taskId
  let received := (waiter.filter (!·.receiverDropped)).map fun waiter =>
    ⟨result.taskId, waiter.assignee, source, ⟨result.success, result.output, result.durationMs⟩⟩
  { s with pending, received := s.received ++ received.toList }

/-- The peer that gets the task, and the router with the waiter. -/
def offload (taskId capability : String) (timeout now : Nat) :
    Option (String × SwarmResultRouter) :=
  if hasCapability s.peers capability then
    match selectPeer s.peers capability with
    | some peer =>
        match s.pending.register taskId peer timeout now with
        | .ok pending => some (peer, pending)
        | .error _ => none
    | none => none
  else none

def step : OriginStep → SwarmOrigin
  | .message source message order now => s.onMessage source message order now
  | .peerExpired peer => { s with peers := s.peers.erase peer }
  | .nextEvent =>
      match s.events with
      | [] => s
      | ⟨.incomingTask _, _⟩ :: rest => { s with events := rest }
      | ⟨.taskCompleted result, source⟩ :: rest =>
          { s with events := rest }.onCompleted source result
  | .offload taskId capability timeout now =>
      match s.offload taskId capability timeout now with
      | some (_, pending) => { s with pending }
      | none => s
  | .dropReceiver taskId =>
      match s.pending.lookup taskId with
      | some waiter =>
          { s with pending := s.pending.insert taskId { waiter with receiverDropped := true } }
      | none => s
  | .cleanup now => { s with pending := s.pending.cleanupExpired now }

/-! ## Who has published a result -/

def FromAssignee : Prop := ∀ r ∈ s.received, r.source = some r.assignee

/-- No waiter that listens under the id has its task with another peer. -/
def Fits (taskId : String) (source : Option String) : Prop :=
  ∀ waiter ∈ s.pending.lookup taskId, waiter.receiverDropped = false → source = some waiter.assignee

def FitsEvent (e : QueuedEvent) : Prop :=
  match e.event with
  | .taskCompleted result => s.Fits result.taskId e.source
  | .incomingTask _ => True

/-- If the step takes a result to a waiter, the waiter's own peer has published it. -/
def TakesFromAssignee : OriginStep → Prop
  | .nextEvent => ∀ e ∈ s.events.head?, s.FitsEvent e
  | _ => True

/-- A result is published by the peer that its task was assigned to: when it comes in, by the
peer of the waiter under its id; and a task is not registered under the id of a result that
another peer has published already. -/
def SentByAssignee : OriginStep → Prop
  | .message source (.taskResult result) _ _ => s.Fits result.taskId source
  | .offload taskId capability timeout now =>
      ∀ registered ∈ s.offload taskId capability timeout now, ∀ e ∈ s.events,
        e.event.resolves taskId = true → e.source = some registered.1
  | _ => True

instance (s : SwarmOrigin) (taskId : String) (source : Option String) :
    Decidable (s.Fits taskId source) := by
  unfold Fits
  infer_instance

instance (s : SwarmOrigin) (label : OriginStep) : Decidable (s.SentByAssignee label) := by
  unfold SentByAssignee
  split <;> infer_instance

section

variable {s s' : SwarmOrigin} {e : QueuedEvent} {taskId : String} {source : Option String}

/-- A result reaches a waiter exactly if one is there that listens. -/
theorem onCompleted_fromAssignee_iff (h : s.FromAssignee) (source : Option String)
    (result : TaskResult) :
    (s.onCompleted source result).FromAssignee ↔ s.Fits result.taskId source := by
  simp only [onCompleted, SwarmResultRouter.resolve, FromAssignee, Fits, mem_append,
    or_imp, forall_and]
  refine (and_iff_right h).trans ?_
  cases s.pending.lookup result.taskId with
  | none => simp
  | some waiter =>
    cases hdropped : waiter.receiverDropped with
    | true | false => simp [hdropped]

theorem step_received (label : OriginStep) (h : label ≠ .nextEvent) :
    (s.step label).received = s.received := by
  cases label with
  | nextEvent => exact absurd rfl h
  | message source message =>
    cases message with
    | heartbeat => cases source <;> rfl
    | _ => rfl
  | offload | dropReceiver =>
    simp only [step]
    split <;> rfl
  | peerExpired | cleanup => rfl

theorem step_fromAssignee_iff (h : s.FromAssignee) (label : OriginStep) :
    (s.step label).FromAssignee ↔ s.TakesFromAssignee label := by
  by_cases hnext : label = .nextEvent
  · subst hnext
    simp only [step, TakesFromAssignee]
    split
    · next hevents => exact iff_of_true h (by simp [hevents])
    · next task source rest hevents => exact iff_of_true h (by simp [hevents, FitsEvent])
    next result source rest hevents =>
    have hrest : FromAssignee { s with events := rest } := h
    rw [onCompleted_fromAssignee_iff hrest, hevents]
    simp [FitsEvent, Fits]
  · refine iff_of_true ?_ ?_
    · rw [FromAssignee, step_received label hnext]
      exact h
    · cases label with
      | nextEvent => exact absurd rfl hnext
      | _ => trivial

def EventsFit (s : SwarmOrigin) : Prop := ∀ e ∈ s.events, s.FitsEvent e

/-- Waiters that go, or no longer listen, take no event. -/
theorem FitsEvent.mono (h : s.FitsEvent e)
    (hpending : ∀ taskId waiter, s'.pending.lookup taskId = some waiter →
      waiter.receiverDropped = false → s.pending.lookup taskId = some waiter) : s'.FitsEvent e := by
  unfold FitsEvent at h ⊢
  cases hevent : e.event with
  | incomingTask => trivial
  | taskCompleted result =>
    simp only [hevent] at h
    exact fun waiter hwaiter hlistens =>
      h waiter (hpending result.taskId waiter hwaiter hlistens) hlistens

theorem offload_registers {capability : String} {timeout now : Nat}
    {registered : String × SwarmResultRouter}
    (h : s.offload taskId capability timeout now = some registered) :
    registered.2 = (s.pending.cleanupExpired now).insert taskId
      { expiresAt := now + timeout, assignee := registered.1 } := by
  unfold offload SwarmResultRouter.register at h
  split at h
  · split at h
    · split at h
      · next hregister =>
        cases h
        simp only at hregister
        split at hregister
        · cases hregister
        cases hregister
        rfl
      · cases h
    · cases h
  · cases h

theorem step_eventsFit (h : s.EventsFit) (label : OriginStep) (hguard : s.SentByAssignee label) :
    (s.step label).EventsFit := by
  cases label with
  | peerExpired => exact h
  | cleanup =>
    refine fun e he => (h e he).mono fun taskId waiter hwaiter _ => ?_
    exact retain_sub _ s.pending taskId waiter hwaiter
  | dropReceiver taskId =>
    simp only [step]
    split
    · next waiter hwaiter =>
      refine fun e he => (h e he).mono fun other waiter' hwaiter' hlistens => ?_
      by_cases hother : other = taskId
      · subst hother
        rw [lookup_insert] at hwaiter'
        rw [← Option.some.inj hwaiter'] at hlistens
        cases hlistens
      · rwa [lookup_insert_ne hother] at hwaiter'
    · exact h
  | message source message =>
    cases message with
    | heartbeat =>
      cases source with
      | none | some => exact h
    | taskQuery => exact h
    | taskResult =>
      refine forall_mem_append.mpr ⟨h, forall_mem_singleton.mpr ?_⟩
      exact hguard
    | taskAssignment =>
      simp only [step, onMessage]
      split
      · exact forall_mem_append.mpr ⟨h, forall_mem_singleton.mpr trivial⟩
      · exact h
  | nextEvent =>
    simp only [step]
    split
    · exact h
    · next hevents => exact fun e he => h e (by rw [hevents]; exact mem_cons_of_mem _ he)
    next hevents =>
    refine fun e he => (h e (by rw [hevents]; exact mem_cons_of_mem _ he)).mono ?_
    exact fun taskId waiter hwaiter _ => erase_sub _ s.pending taskId waiter hwaiter
  | offload taskId =>
    simp only [step]
    split
    · next peer pending hoffload =>
      have hpending : pending = _ := offload_registers hoffload
      have hsource := hguard _ hoffload
      intro e he
      unfold FitsEvent
      cases hevent : e.event with
      | incomingTask => trivial
      | taskCompleted result =>
        have hfits := h e he
        simp only [FitsEvent, hevent] at hfits
        intro waiter hwaiter hlistens
        rw [hpending] at hwaiter
        by_cases hother : result.taskId = taskId
        · rw [hother, mem_def, lookup_insert] at hwaiter
          have hresolves : e.event.resolves taskId = true := by
            rw [hevent]
            exact beq_iff_eq.mpr hother
          rw [hsource e he hresolves, ← Option.some.inj hwaiter]
        · rw [mem_def, lookup_insert_ne hother] at hwaiter
          exact hfits waiter (retain_sub _ s.pending _ waiter hwaiter) hlistens
    · exact h

end

/-- Over every sequence of messages and whatever the waiters do: what they receive is from the
peers of their tasks exactly if each result that is taken to one is; and it is, if the results
that come in are published by the peers of the tasks. -/
theorem received_fromAssignee (nodeId : String) (steps : List OriginStep) :
    ((∀ pre, pre <+: steps → (run step { nodeId } pre).FromAssignee)
      ↔ Guarded step TakesFromAssignee { nodeId } steps)
    ∧ (Guarded step SentByAssignee { nodeId } steps →
      ∀ pre, pre <+: steps → (run step { nodeId } pre).FromAssignee) := by
  have hnew : FromAssignee { nodeId } := fun _ hr => absurd hr not_mem_nil
  have hfits : EventsFit { nodeId } := fun _ he => absurd he not_mem_nil
  have hiff : ∀ (s : SwarmOrigin) label, s.FromAssignee →
      ((s.step label).FromAssignee ↔ s.TakesFromAssignee label) :=
    fun _ label h => step_fromAssignee_iff h label
  refine ⟨reached_iff_guarded hiff hnew, fun hguarded pre hpre => ?_⟩
  have hstep : ∀ (s : SwarmOrigin) label, s.FromAssignee ∧ s.EventsFit → s.SentByAssignee label →
      (s.step label).FromAssignee ∧ (s.step label).EventsFit := by
    rintro s label ⟨hfrom, hfits⟩ hguard
    refine ⟨(step_fromAssignee_iff hfrom label).mpr ?_, step_eventsFit hfits label hguard⟩
    cases label with
    | nextEvent => exact fun e he => hfits e (mem_of_mem_head? he)
    | _ => trivial
  exact (invariant_reached hstep ⟨hnew, hfits⟩ hguarded hpre).1

/-- Both peers announce themselves; a task is sent to the one with more slots. -/
def assigned : List OriginStep :=
  [ .message (some "peer-a") (.heartbeat "peer-a" 4 ["tool_exec"]) (.stored _ _) 0,
    .message (some "peer-b") (.heartbeat "peer-b" 1 ["tool_exec"]) (.stored _ _) 0,
    .offload "task-1" "tool_exec" 5000 0 ]

def resultFrom (peer output : String) : List OriginStep :=
  [.message (some peer) (.taskResult ⟨"task-1", true, output, 3⟩) (.stored _ _) 1, .nextEvent]

theorem ownResult_received :
    (run step { nodeId := "node" } (assigned ++ resultFrom "peer-a" "done")).received
        = [⟨"task-1", "peer-a", some "peer-a", ⟨true, "done", 3⟩⟩]
      ∧ (run step { nodeId := "node" } (assigned ++ resultFrom "peer-a" "done")).FromAssignee :=
  ⟨by decide, (received_fromAssignee "node" (assigned ++ resultFrom "peer-a" "done")).2
    (by decide) _ (prefix_refl _)⟩

/-- The other peer, which has seen the task on the network, answers in its place. -/
theorem foreignResult_received :
    (run step { nodeId := "node" } (assigned ++ resultFrom "peer-b" "forged")).received
        = [⟨"task-1", "peer-a", some "peer-b", ⟨true, "forged", 3⟩⟩]
      ∧ ¬ (run step { nodeId := "node" }
        (assigned ++ resultFrom "peer-b" "forged")).FromAssignee := by
  have hreceived : (run step { nodeId := "node" }
      (assigned ++ resultFrom "peer-b" "forged")).received
        = [⟨"task-1", "peer-a", some "peer-b", ⟨true, "forged", 3⟩⟩] := by decide
  refine ⟨hreceived, fun h => ?_⟩
  have hsource := h _ (by rw [hreceived]; exact mem_singleton_self _)
  exact absurd hsource (by decide)

end SwarmOrigin

end TitanClaw.Swarm
