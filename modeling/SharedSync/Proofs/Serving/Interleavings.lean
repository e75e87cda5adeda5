import SharedSync.Proofs.Authority.Reached
import SharedSync.Proofs.Serving.Connections

/-!
# Serving — many connections, one authority

A `Hub` holds connections that ask the same authority.  One connection at a time takes a step, in
any order.  The log lists the frames in the order in which they were answered.

* `run_alone`: a hub with one connection does what `serve` does.
* `Serial`: the authority answered the requests of the log as if they had been made one after the
  other, and each connection has its part of the log, in the order of its bytes.
* `Serial.step`, `Serial.run`: every step keeps that, and so does every interleaving.
* `run_serial`: so no two creations, on whatever connections, made the same object.
-/

namespace SharedSync

open Source (Delivers)

/-- The last request is answered behind the others. -/
theorem Authority.replies_snoc {σ : Type} (a : Authority σ) (requests : List Request)
    (request : Request) (s : σ) : a.replies (requests ++ [request]) s =
      ((a.replies requests s).1 ++ [(a.answer request (a.replies requests s).2).result],
        (a.answer request (a.replies requests s).2).state) := by
  induction requests generalizing s with
  | nil => rfl
  | cons first rest ih => rw [List.cons_append, replies_cons, ih, replies_cons]; rfl

namespace Server

/-- A frame that was answered, with the connection that it came on. -/
structure Service where
  connection : Nat
  frame : Frame
  reply : Reply
deriving DecidableEq

/-- The connections to one authority. -/
structure Hub (σ : Type) where
  connections : List Connection
  authority : σ
  /-- What was answered, the first frame first. -/
  log : List Service := []

namespace Hub

variable {σ : Type}

/-- A new connection on each stream. -/
def opened (streams : List Stream) (s : σ) : Hub σ :=
  { connections := streams.map fun stream => { stream }, authority := s }

/-- The hub in which connection `i` has become `c`, the authority `s`, and a frame may have been
answered. -/
def after (hub : Hub σ) (i : Nat) (c : Connection) (s : σ) (answered : Option (Frame × Reply)) :
    Hub σ :=
  { connections := hub.connections.set i c
    authority := s
    log := hub.log ++ (answered.map fun x => ⟨i, x.1, x.2⟩).toList }

/-- A step of connection `i`. -/
def step (a : Authority σ) (i : Nat) (hub : Hub σ) : Hub σ :=
  match hub.connections[i]? with
  | none => hub
  | some c =>
      hub.after i (c.step a hub.authority).1 (c.step a hub.authority).2
        (c.answers? a hub.authority)

/-- Steps of connections, in the order of the schedule. -/
def run (a : Authority σ) : (schedule : List Nat) → Hub σ → Hub σ
  | [], hub => hub
  | i :: schedule, hub => run a schedule (hub.step a i)

/-- What was answered on connection `i`. -/
def answeredOn (hub : Hub σ) (i : Nat) : List (Frame × Reply) :=
  (hub.log.filter fun service => service.connection = i).map fun service =>
    (service.frame, service.reply)

/-- The requests that the authority was asked for, with its replies, in the order of asking. -/
def history (hub : Hub σ) : List (Request × Reply) :=
  hub.log.filterMap fun service => service.frame.request?.map fun request =>
    (request, service.reply)

/-! ### Alone -/

/-- A hub with one connection takes that connection's steps. -/
theorem run_replicate (a : Authority σ) (n : Nat) (c : Connection) (s : σ) (log : List Service) :
    ∃ log', run a (List.replicate n 0) ⟨[c], s, log⟩ =
      ⟨[(c.steps a n s).1], (c.steps a n s).2, log'⟩ := by
  induction n generalizing c s log with
  | zero => exact ⟨log, rfl⟩
  | succ n ih => exact ih (c.step a s).1 (c.step a s).2 _

/-- **A hub with one connection does what `serve` does.** -/
theorem run_alone (a : Authority σ) (stream : Stream) (s : σ) : ∃ n c log,
    run a (List.replicate n 0) (opened [stream] s) = ⟨[c], (serve a stream s).state.2, log⟩ ∧
      c.stream = (serve a stream s).state.1 ∧ c.phase = .closed (serve a stream s).result := by
  obtain ⟨n, count, hsteps⟩ := Connection.steps_alone a 0 [] stream s
  obtain ⟨log, hrun⟩ := run_replicate a n { stream } s []
  rw [hsteps] at hrun
  exact ⟨n, _, log, hrun, rfl, rfl⟩

/-! ### One order for all -/

/-- What the connections answered is what the authority, at first in the state `m`, answers to the
same requests made one after the other. -/
structure Serial (m : MemoryAuthority) (streams : List Stream) (hub : Hub MemoryAuthority) :
    Prop where
  size : hub.connections.length = streams.length
  /-- Each connection answered the frames of its own bytes, in their order. -/
  tracks : ∀ (i : Nat) (stream : Stream) (c : Connection), streams[i]? = some stream →
    hub.connections[i]? = some c → c.Tracks (Source.pending stream.incoming) (hub.answeredOn i)
  known : ∀ service ∈ hub.log, service.connection < streams.length
  /-- A frame whose request cannot be decoded is answered for the authority. -/
  refused : ∀ service ∈ hub.log, service.frame.request? = none →
    service.reply = service.frame.refusal
  serial : MemoryAuthority.authority.replies (hub.history.map Prod.fst) m =
    (hub.history.map fun exchange => .ok exchange.2, hub.authority)

variable {m : MemoryAuthority} {streams : List Stream} {hub : Hub MemoryAuthority}

/-- A stream on which all goes well, whatever is sent. -/
structure IsOpen (stream : Stream) : Prop where
  delivers : Delivers stream.incoming (Source.pending stream.incoming)
  accepts : stream.sink.Accepts
  fresh : stream.sink.output = []

/-- Nothing was answered yet. -/
theorem serial_opened (h : ∀ stream ∈ streams, IsOpen stream) (m : MemoryAuthority) :
    Serial m streams (opened streams m) := by
  refine ⟨List.length_map _, ?_, nofun, nofun, rfl⟩
  intro i stream c hstream hc
  obtain ⟨delivers, accepts, fresh⟩ := h stream (List.mem_of_getElem? hstream)
  have hopened : (opened streams m).connections[i]? = some { stream } := by
    simp only [opened, List.getElem?_map, hstream, Option.map_some]
  obtain rfl : ({ stream } : Connection) = c := Option.some.inj (hopened.symm.trans hc)
  exact Connection.tracks_opened delivers accepts fresh

section After

variable (i : Nat) (c : Connection) (m' : MemoryAuthority)

theorem answeredOn_after (answered : Option (Frame × Reply)) (j : Nat) :
    (hub.after i c m' answered).answeredOn j =
      hub.answeredOn j ++ if i = j then answered.toList else [] := by
  cases answered with
  | none => simp [after, answeredOn]
  | some x => by_cases h : i = j <;> simp [after, answeredOn, h]

theorem history_after_none : (hub.after i c m' none).history = hub.history := by
  simp [after, history]

theorem history_after_some (f : Frame) (r : Reply) :
    (hub.after i c m' (some (f, r))).history =
      hub.history ++ (f.request?.map (·, r)).toList := by
  cases h : f.request? <;> simp [after, history, h]

/-- A step logs what it answered, under its own connection. -/
theorem mem_log_after {answered : Option (Frame × Reply)} {service : Service}
    (h : service ∈ (hub.after i c m' answered).log) :
    service ∈ hub.log ∨
      service.connection = i ∧ answered = some (service.frame, service.reply) := by
  rcases List.mem_append.mp h with h | h
  · exact .inl h
  · cases answered with
    | none => cases h
    | some x =>
        obtain rfl := List.mem_singleton.mp h
        exact .inr ⟨rfl, rfl⟩

end After

/-- What the authority was asked, if anything, comes last in the order. -/
theorem Serial.serial_after (h : Serial m streams hub) {m' : MemoryAuthority}
    {answered : Option (Frame × Reply)}
    (effect : Connection.Effect MemoryAuthority.authority hub.authority answered m') (i : Nat)
    (c : Connection) : MemoryAuthority.authority.replies
        ((hub.after i c m' answered).history.map Prod.fst) m =
      ((hub.after i c m' answered).history.map fun exchange => .ok exchange.2, m') := by
  cases effect with
  | none =>
      rw [history_after_none]
      exact h.serial
  | refused undecoded =>
      rw [history_after_some, undecoded, Option.map_none, Option.toList_none, List.append_nil]
      exact h.serial
  | asked decoded answer =>
      rw [history_after_some, decoded, Option.map_some, Option.toList_some, List.map_append,
        List.map_append, List.map_singleton, Authority.replies_snoc, h.serial]
      simp only [answer]
      rfl

/-- **A step of any connection keeps one order for all.** -/
theorem Serial.step (h : Serial m streams hub) (i : Nat) :
    Serial m streams (hub.step MemoryAuthority.authority i) := by
  unfold Hub.step
  cases hc : hub.connections[i]? with
  | none => exact h
  | some c =>
      have hlt : i < hub.connections.length := (List.getElem?_eq_some_iff.mp hc).1
      -- one connection takes its step, and the log grows by its answer, if it gives one
      have tracks := fun stream hstream => (h.tracks i stream c hstream hc).step hub.authority
      have effect := c.effect_step hub.authority
      simp only
      generalize (c.step MemoryAuthority.authority hub.authority).1 = c' at tracks ⊢
      generalize (c.step MemoryAuthority.authority hub.authority).2 = m' at effect ⊢
      generalize c.answers? MemoryAuthority.authority hub.authority = answered at tracks effect ⊢
      refine ⟨(List.length_set ..).trans h.size, ?tracks, ?known, ?refused,
        h.serial_after effect i c'⟩
      case tracks =>
        intro j stream d hstream hd
        rw [answeredOn_after]
        by_cases hij : i = j
        · subst hij
          obtain rfl : c' = d := Option.some.inj ((List.getElem?_set_self hlt).symm.trans hd)
          rw [if_pos rfl]
          exact tracks stream hstream
        · rw [if_neg hij, List.append_nil]
          exact h.tracks j stream d hstream ((List.getElem?_set_ne hij).symm.trans hd)
      case known =>
        intro service hmem
        rcases mem_log_after _ _ _ hmem with hmem | ⟨rfl, -⟩
        · exact h.known service hmem
        · exact h.size ▸ hlt
      case refused =>
        intro service hmem hnone
        rcases mem_log_after _ _ _ hmem with hmem | ⟨-, hanswered⟩
        · exact h.refused service hmem hnone
        · cases effect with
          | none => cases hanswered
          | asked decoded =>
              obtain ⟨rfl, rfl⟩ := Prod.mk.inj (Option.some.inj hanswered)
              rw [hnone] at decoded
              cases decoded
          | refused =>
              obtain ⟨rfl, hreply⟩ := Prod.mk.inj (Option.some.inj hanswered)
              exact hreply.symm

/-- **Every interleaving keeps one order for all.** -/
theorem Serial.run (h : Serial m streams hub) (schedule : List Nat) :
    Serial m streams (hub.run MemoryAuthority.authority schedule) := by
  induction schedule generalizing hub with
  | nil => exact h
  | cons i schedule ih => exact ih (h.step i)

/-- **Connections that share an authority are served as if one had made all requests.**  Whatever
arrives on them and in whatever order they take their steps, there is one order of the requests
that were asked: each connection has answered frames of its bytes in their order and wrote the
replies, these are what the authority answers in the one order, and it is in the state that this
leaves.  And no two creations, made at any time on any connection, share an object or a name; a
reply that says that a name exists is about the one creation that took it. -/
theorem run_serial {past : List (Request × Reply)} (reached : MemoryAuthority.Reached m past)
    (opens : ∀ stream ∈ streams, IsOpen stream) (schedule : List Nat) :
    Serial m streams ((opened streams m).run MemoryAuthority.authority schedule) ∧
      Registry.Distinct
        (past ++ ((opened streams m).run MemoryAuthority.authority schedule).history) := by
  have h := (serial_opened opens m).run schedule
  exact ⟨h, (reached.replies h.serial).distinct⟩

/-! ### Two connections -/

namespace Small

/-- The semaphore `s` is asked for. -/
def askNamed : Bytes :=
  [0, 0, 0, 50, 0, 1, 0, 1, 0, 0, 0, 0, 0, 0, 0, 1, 1, 0, 0, 0, 0, 0, 0, 0, 2, 0, 0, 0, 5, 0, 0, 0,
    18, 0, 0, 0, 0, 0, 0, 0, 0, 0, 0, 0, 0, 0, 0, 0, 2, 0, 0, 0, 115, 0]

/-- The first handle is asked for. -/
def askFirst : Bytes := [0, 0, 0, 16, 0, 1, 0, 2, 0, 0, 0, 0, 0, 0, 0, 2, 4, 0, 0, 0]

/-- A query of one byte. -/
def shortQuery : Bytes := [0, 0, 0, 13, 0, 1, 0, 2, 0, 0, 0, 0, 0, 0, 0, 3, 4]

/-- A frame that is cut off. -/
def cutOff : Bytes := [0, 0, 0, 16, 0]

/-- A client that sends these bytes at once and then closes. -/
def sender (bytes : Bytes) : Stream := ⟨[.chunk bytes], {}⟩

theorem isOpen_sender (bytes : Bytes) : IsOpen (sender bytes) := by
  refine ⟨?_, accepts_default, rfl⟩
  have hpending : Source.pending (sender bytes).incoming = bytes := List.append_nil bytes
  rw [hpending]
  exact Source.delivers_chunk bytes

/-- An authority that has made nothing yet. -/
def fresh : MemoryAuthority := ⟨some (.start World.Small.path .usual 0)⟩

/-- Two clients; both ask for the same name. -/
def senders : List Stream := [askNamed, askNamed ++ askFirst ++ shortQuery ++ cutOff].map sender

/-- The second connection takes the name while the first is about to ask for it. -/
def schedule : List Nat := [0, 1, 1, 0, 0, 1, 1, 1, 1, 0, 1, 1, 1, 1]

end Small

/-- Both connections ask for the same name: one makes the semaphore, the other opens it. -/
theorem run_serial_small : ∃ hub : Hub MemoryAuthority,
    hub = (opened Small.senders Small.fresh).run MemoryAuthority.authority Small.schedule ∧
    hub.log.map Service.connection = [1, 0, 1, 1] ∧
    MemoryAuthority.authority.replies
        [.create World.Small.request, .create World.Small.request, .query .first] Small.fresh =
      ([.ok ⟨.success, some .first, ⟨0⟩, 1⟩, .ok ⟨.objectNameExists, some .first, ⟨0⟩, 1⟩,
        .ok ⟨.success, some .first, ⟨0⟩, 1⟩], hub.authority) := by
  have opens : ∀ stream ∈ Small.senders, IsOpen stream :=
    List.forall_mem_map.mpr fun bytes _ => Small.isOpen_sender bytes
  obtain ⟨h, -⟩ := run_serial (.created (World.Small.create_eq 0)) opens Small.schedule
  have hhistory : ((opened Small.senders Small.fresh).run MemoryAuthority.authority
      Small.schedule).history =
      [(.create World.Small.request, ⟨.success, some .first, ⟨0⟩, 1⟩),
        (.create World.Small.request, ⟨.objectNameExists, some .first, ⟨0⟩, 1⟩),
        (.query .first, ⟨.success, some .first, ⟨0⟩, 1⟩)] := by cbv
  have hserial := h.serial
  rw [← Small.fresh, hhistory] at hserial
  exact ⟨_, rfl, by cbv, hserial⟩

/-- Of all replies of success, those to queries name the object once more; and what cannot be
decoded is answered without the registry. -/
theorem successes_not_distinct :
    IsOpen (Small.sender (Small.askNamed ++ Small.askFirst ++ Small.shortQuery)) ∧
    MemoryAuthority.Reached Small.fresh [] ∧
    ∃ hub : Hub MemoryAuthority,
      hub = (opened [Small.sender (Small.askNamed ++ Small.askFirst ++ Small.shortQuery)]
        Small.fresh).run MemoryAuthority.authority (List.replicate 10 0) ∧
      hub.log.length = 3 ∧ hub.history.length = 2 ∧
      ¬ ((hub.log.map Service.reply).filter fun reply => reply.status = .success).Pairwise
        fun reply other => reply.handle ≠ other.handle ∧ reply.slot ≠ other.slot := by
  refine ⟨Small.isOpen_sender _, .created (World.Small.create_eq 0), _, rfl, by cbv, by cbv,
    ?_⟩
  have hreplies : ((opened [Small.sender (Small.askNamed ++ Small.askFirst ++ Small.shortQuery)]
      Small.fresh).run MemoryAuthority.authority (List.replicate 10 0)).log.map Service.reply =
      [⟨.success, some .first, ⟨0⟩, 1⟩, ⟨.success, some .first, ⟨0⟩, 1⟩, .bare .invalidHandle] := by
    cbv
  rw [hreplies]
  decide

end Hub

end Server

end SharedSync
