import SharedSync.Authority.Link
import SharedSync.Authority
import SharedSync.Proofs.Authority.Session
import SharedSync.Proofs.Serving.Connections
import SharedSync.Proofs.Stream.Failures

/-!
# Serving — which call a reply belongs to

A client calls an authority over a `Link`, and its reads may fail: between replies, or within one.
A read that fails within a reply leaves the rest of it to the next call, which takes it for a
header.

* `Link.calls`: the calls with what the client got, and with what the authority replied to them.
* `Astride`: a frame stands among the bytes of others, but not where one of them begins.
* `Follows.call`: what a call gets, it gets from a frame in line, and then it is its own reply; or
  from a frame astride of the replies.
* `calls_rightful`: so it is with all calls, whatever reads fail; `reply_of_another`: and there are
  replies that a client takes for those of another call.
-/

namespace SharedSync

open Source (Delivers pending)
open SharedSync.Stream (Queue encodeAll)

/-! ### Requests -/

/-- The request that arrives at a server: none if it fits no frame; an empty name is no name. -/
def Request.arriving? : Request → Option Request
  | .create request =>
      match request.encode with
      | .error _ => none
      | .ok payload =>
          if payload.length ≤ Frame.maxPayload then some (.create request.normal) else none
  | .query handle => some (.query handle)

namespace Request

variable {request arrived : Request}

/-- A request that arrives fits a frame. -/
theorem fits_of_arriving? (h : request.arriving? = some arrived) : request.Fits := by
  cases request with
  | query handle => trivial
  | create request =>
      cases hp : request.encode with
      | error fault =>
          simp only [arriving?, hp] at h
          cases h
      | ok payload =>
          simp only [arriving?, hp] at h
          split at h
          · next hle => exact ⟨payload, hp, hle⟩
          · cases h

/-- The frame of a request brings it to the server. -/
theorem request?_of_carries {f : Frame} (hf : f.Carries request)
    (h : request.arriving? = some arrived) : f.isAsking = true ∧ f.request? = some arrived := by
  cases hf with
  | query =>
      obtain rfl := Option.some.inj h
      refine ⟨rfl, ?_⟩
      simp only [Frame.request?, Query.decode?_encode, Option.map_some]
  | @create request payload n hp =>
      simp only [arriving?, hp] at h
      split at h
      · obtain rfl := Option.some.inj h
        refine ⟨rfl, ?_⟩
        simp only [Frame.request?, CreateRequest.decode?_encode hp, Option.map_some]
      · cases h

end Request

/-- The server asks the authority for the request of the frame. -/
theorem Server.reply_of_request {σ : Type} {f : Frame} {request : Request}
    (h : f.request? = some request) (asking : f.isAsking = true) (a : Authority σ) (s : σ) :
    reply a f s = a.answer request s := by
  have hr := answering_reply a f s
  generalize reply a f s = outcome at hr
  cases hr with
  | asked decoded =>
      obtain rfl := Option.some.inj (h.symm.trans decoded)
      rfl
  | refused _ undecoded => rw [h] at undecoded; cases undecoded
  | closing closing => rw [asking] at closing; cases closing

/-! ### Calls -/

namespace Link

variable {σ : Type}

/-- One call of a client. -/
structure Call where
  number : UInt64
  /-- The reply that the authority gave to this very request, if it gave one. -/
  own : Option Reply
  /-- What the client got. -/
  result : Except SyncError Reply

/-- What the authority at the other end replies to a request, if it arrives. -/
def own (a : Authority σ) (l : Link σ) (request : Request) : Option Reply :=
  match l.failure, request.arriving? with
  | none, some arrived => (a.answer arrived l.authority).result.toOption
  | _, _ => none

/-- The client's calls, one after the other, whether they fail or not. -/
def calls (a : Authority σ) (carry : Nat → Bytes → List Arrival) :
    List Request → Client (Link σ) → List Call
  | [], _ => []
  | request :: rest, c =>
      let outcome := (Client.authority (transport a carry)).answer request c
      ⟨c.next, own a c.connection request, outcome.result⟩ :: calls a carry rest outcome.state

/-- The calls of a log return what the client's answers are. -/
theorem results_calls (a : Authority σ) (carry : Nat → Bytes → List Arrival)
    (requests : List Request) (c : Client (Link σ)) :
    (calls a carry requests c).map Call.result =
      ((Client.authority (transport a carry)).replies requests c).1 := by
  induction requests generalizing c with
  | nil => rfl
  | cons request rest ih => rw [calls, List.map_cons, ih, Authority.replies_cons]

/-- The frame of a reply. -/
def replyFrame (number : UInt64) (reply : Reply) : Frame := ⟨.reply, number, reply.encode⟩

/-- The frame that a call is answered with, if it is. -/
def answer (number : UInt64) (own : Option Reply) : List Frame :=
  (own.map (replyFrame number)).toList

theorem append_answer_none (sent : List Frame) (number : UInt64) :
    sent ++ answer number none = sent :=
  List.append_nil sent

/-- The frames that the server answered calls with. -/
def answers (calls : List Call) : List Frame :=
  calls.flatMap fun call => answer call.number call.own

/-- No bytes are lost on the way; the reads of the server do not fail. -/
structure Keeps (carry : Nat → Bytes → List Arrival) : Prop where
  pending : ∀ n bytes, pending (carry n bytes) = bytes
  asking : ∀ (n : Nat) (f : Frame) (bytes : Bytes), f.isAsking = true → f.encode = .ok bytes →
    Delivers (carry n bytes) bytes

/-- The reads of the client fail only between frames. -/
def FailsBetween (carry : Nat → Bytes → List Arrival) : Prop :=
  ∀ (n : Nat) (f : Frame) (bytes : Bytes), f.kind = .reply → f.encode = .ok bytes →
    Queue (carry n bytes) [f]

/-- Reads may fail in front of a reply and behind it; within it there are only interruptions. -/
theorem failsBetween_of_gaps {before pieces after : Nat → Bytes → List Arrival}
    (hbefore : ∀ n bytes, pending (before n bytes) = [])
    (hpieces : ∀ n bytes, Delivers (pieces n bytes) bytes)
    (hafter : ∀ n bytes, pending (after n bytes) = []) :
    FailsBetween fun n bytes => before n bytes ++ (pieces n bytes ++ after n bytes) :=
  fun n _ bytes _ encode =>
    .next (hbefore n bytes) encode (hpieces n bytes) (.ended (hafter n bytes))

/-- The frame stands among the bytes of reply frames, but not where one of them begins. -/
def Astride (f : Frame) (frames : List Frame) : Prop :=
  ∃ front bytes back, f.encode = .ok bytes ∧ encodeAll frames = .ok (front ++ (bytes ++ back)) ∧
    front.length % (Limits.frameHeaderBytes + Reply.bytes) ≠ 0

/-- Where one of the reply frames begins, no other frame stands. -/
theorem mem_of_aligned {frames : List Frame} {f : Frame} {front bytes back : Bytes}
    (hframes : ∀ g ∈ frames, g.payload.length = Reply.bytes) (hf : f.encode = .ok bytes)
    (h : encodeAll frames = .ok (front ++ (bytes ++ back)))
    (aligned : front.length % (Limits.frameHeaderBytes + Reply.bytes) = 0) : f ∈ frames := by
  have hlen := Frame.length_of_encode hf
  simp only [Limits.frameHeaderBytes] at hlen
  induction frames generalizing front with
  | nil =>
      have hnil := congrArg List.length (Except.ok.inj h)
      simp only [List.length_append, List.length_nil] at hnil
      omega
  | cons g frames ih =>
      obtain ⟨first, tail, hg, htail, hsplit⟩ := Stream.encodeAll_cons h
      have hfirst := Frame.length_of_encode hg
      rw [hframes g (List.mem_cons_self ..)] at hfirst
      simp only [Limits.frameHeaderBytes, Reply.bytes] at hfirst aligned
      by_cases hfront : front = []
      · rw [hfront, List.nil_append] at hsplit
        rw [Frame.eq_of_encode hf hg hsplit]
        exact List.mem_cons_self ..
      -- the first frame is a part of the front
      · have hpos := List.length_pos_iff.mpr hfront
        have hle : first.length ≤ front.length := by omega
        have htake := congrArg (List.take first.length) hsplit
        have hdrop := congrArg (List.drop first.length) hsplit
        rw [List.take_left, List.take_append_of_le_length hle] at htake
        rw [List.drop_left, List.drop_append_of_le_length hle] at hdrop
        refine List.mem_cons_of_mem _ (ih (fun g hg => hframes g (List.mem_cons_of_mem _ hg))
          (hdrop ▸ htail) ?_)
        rw [List.length_drop, hfirst]
        simp only [Limits.frameHeaderBytes, Reply.bytes]
        omega

/-! ### One call -/

variable {a : Authority σ} {carry : Nat → Bytes → List Arrival} {request : Request}
  {c : Client (Link σ)} {sent : List Frame} {count : Nat}

/-- What an answer to the call is, on its way to the client. -/
inductive Answered (carry : Nat → Bytes → List Arrival) (number : UInt64) :
    Option Reply → List Arrival → Prop where
  | nothing : Answered carry number none []
  | reply {r bytes n} (encode : (replyFrame number r).encode = .ok bytes) :
      Answered carry number (some r) (carry n bytes)

/-- How a call goes: it is not sent, or it is, and then the client waits for the answer. -/
inductive Calling (a : Authority σ) (carry : Nat → Bytes → List Arrival) (request : Request)
    (c : Client (Link σ)) : Outcome (Client (Link σ)) (Except SyncError Reply) → Prop where
  | unsent {error c' events} (unanswered : own a c.connection request = none)
      (inbox : c'.connection.inbox = c.connection.inbox)
      (next : c'.next = c.next ∨ c'.next = c.next + 1) :
      Calling a carry request c ⟨.error error, c', events⟩
  | sent {kind l more} (answered : Answered carry c.next (own a c.connection request) more)
      (inbox : l.inbox = c.connection.inbox ++ more) :
      Calling a carry request c (Client.await (transport a carry) kind c.next ⟨l, c.next + 1⟩)

/-- A request that fits no frame is not sent. -/
theorem calling_of_not_arriving (h : request.arriving? = none) (a : Authority σ)
    (carry : Nat → Bytes → List Arrival) (c : Client (Link σ)) :
    Calling a carry request c ((Client.authority (transport a carry)).answer request c) := by
  have hown : own a c.connection request = none := by
    unfold own
    cases c.connection.failure <;> simp only [h]
  cases request with
  | query handle => cases h
  | create request =>
      cases hp : request.encode with
      | error fault =>
          rw [Client.answer_of_refused _ hp]
          exact .unsent hown rfl (.inl rfl)
      | ok payload =>
          simp only [Request.arriving?, hp] at h
          have hlong : ¬ payload.length ≤ Frame.maxPayload := fun hle => by
            rw [if_pos hle] at h
            cases h
          rw [Client.answer_of_oversized _ (.create hp) rfl (Nat.not_le.mp hlong)]
          exact .unsent hown rfl (.inr rfl)

/-- What the server does with the frame of a request. -/
theorem exchange_of_request (keeps : Keeps carry) {f : Frame} {bytes : Bytes} {arrived : Request}
    (hf : f.encode = .ok bytes) (asking : f.isAsking = true) (hr : f.request? = some arrived)
    (l : Link σ) : ∃ more, (l.exchange a carry bytes).inbox = l.inbox ++ more ∧
      Answered carry f.request (a.answer arrived l.authority).result.toOption more := by
  have hdelivers := keeps.asking l.served f bytes asking hf
  rw [← List.append_nil bytes] at hdelivers
  obtain ⟨rest, hread, -⟩ := Stream.readFrame_of_delivers hf hdelivers
  rw [List.append_nil] at hread
  have hreply := Server.reply_of_request hr asking a l.authority
  rcases ha : a.answer arrived l.authority with ⟨error | r, s', events⟩
  · rw [ha] at hreply
    refine ⟨[], ?_, .nothing⟩
    simp only [exchange, hread, Server.respond, hreply, List.append_nil]
  · rw [ha] at hreply
    obtain ⟨answer, hbytes, hencode⟩ := Server.exists_replyBytes f r
    refine ⟨carry l.served answer, ?_, .reply hencode⟩
    simp only [exchange, hread, Server.respond, hreply, hbytes]

/-- **How a call goes.** -/
theorem calling_answer (keeps : Keeps carry) (a : Authority σ) (request : Request)
    (c : Client (Link σ)) :
    Calling a carry request c ((Client.authority (transport a carry)).answer request c) := by
  cases harriving : request.arriving? with
  | none => exact calling_of_not_arriving harriving a carry c
  | some arrived =>
      obtain ⟨f, bytes, hf, hn, hbytes⟩ := (Request.fits_of_arriving? harriving).exists_frame c.next
      obtain ⟨asking, hr⟩ := Request.request?_of_carries hf harriving
      rw [hf.call_eq, Client.call]
      simp only [← hn, hbytes]
      cases hfailure : c.connection.failure with
      | some failure =>
          simp only [transport, hfailure]
          refine .unsent ?_ rfl (.inr (by rw [hn]))
          simp only [own, hfailure]
      | none =>
          obtain ⟨more, hinbox, hanswered⟩ := exchange_of_request (a := a) keeps hbytes asking hr
            c.connection
          have hown : own a c.connection request =
              (a.answer arrived c.connection.authority).result.toOption := by
            simp only [own, hfailure, harriving]
          rw [← hown, hn] at hanswered
          have hsent : Calling a carry request c (Client.await (transport a carry) f.kind c.next
              ⟨c.connection.exchange a carry bytes, c.next + 1⟩) := .sent hanswered hinbox
          simpa only [transport, hfailure, hn] using hsent

/-- Waiting takes one frame off the inbox. -/
theorem await_transport (a : Authority σ) (carry : Nat → Bytes → List Arrival) (kind : MessageKind)
    (number : UInt64) (c : Client (Link σ)) :
    (Client.await (transport a carry) kind number c).state.connection.inbox =
        (Stream.readFrame c.connection.inbox).2 ∧
      (Client.await (transport a carry) kind number c).state.next = c.next ∧
      ∀ reply, (Client.await (transport a carry) kind number c).result = .ok reply →
        ∃ payload, (Stream.readFrame c.connection.inbox).1 = .ok (some ⟨.reply, number, payload⟩) ∧
          Reply.decode? payload = some reply := by
  obtain ⟨hstate, hresult⟩ := Client.await_receive (transport a carry) kind number c
  rw [hstate]
  exact ⟨rfl, rfl, hresult⟩

/-! ### The client follows the server -/

/-- The server has sent the frames `sent`, in which all numbers are below `count`; the client has
taken a part of their bytes.  If reads fail only between frames, it has taken whole frames. -/
structure Follows (carry : Nat → Bytes → List Arrival) (sent : List Frame) (count : Nat)
    (c : Client (Link σ)) : Prop where
  next : c.next = UInt64.ofNat count
  replies : ∀ f ∈ sent, ∃ (i : Nat) (r : Reply), i < count ∧ f = replyFrame (UInt64.ofNat i) r
  bytes : ∃ taken, encodeAll sent = .ok (taken ++ pending c.connection.inbox)
  queue : FailsBetween carry → ∃ taken left, sent = taken ++ left ∧ Queue c.connection.inbox left

/-- Nothing was sent, and nothing is on its way. -/
theorem follows_start (s : σ) : Follows carry [] 1 { connection := { authority := s } } where
  next := rfl
  replies := nofun
  bytes := ⟨[], rfl⟩
  queue _ := ⟨[], [], rfl, .ended rfl⟩

/-- The answer to a call comes behind all others. -/
theorem Follows.answered (h : Follows carry sent count c) (keeps : Keeps carry) {own : Option Reply}
    {more : List Arrival} (answered : Answered carry c.next own more) {l : Link σ}
    (inbox : l.inbox = c.connection.inbox ++ more) :
    Follows carry (sent ++ answer c.next own) (count + 1) ⟨l, c.next + 1⟩ := by
  have next : c.next + 1 = UInt64.ofNat (count + 1) := by rw [h.next, UInt64.ofNat_add]; rfl
  have replies : ∀ f ∈ sent, ∃ (i : Nat) (r : Reply), i < count + 1 ∧
      f = replyFrame (UInt64.ofNat i) r := fun f hf =>
    have ⟨i, r, hi, hr⟩ := h.replies f hf
    ⟨i, r, Nat.lt_succ_of_lt hi, hr⟩
  cases answered with
  | nothing =>
      rw [List.append_nil] at inbox
      rw [append_answer_none]
      exact ⟨next, replies, inbox ▸ h.bytes, inbox ▸ h.queue⟩
  | @reply r bytes n encode =>
      obtain ⟨taken, hbytes⟩ := h.bytes
      rw [answer, Option.map_some, Option.toList_some]
      refine ⟨next, ?_, ⟨taken, ?_⟩, ?_⟩
      · intro f hf
        rcases List.mem_append.mp hf with hf | hf
        · exact replies f hf
        · rw [List.mem_singleton.mp hf, h.next]
          exact ⟨count, r, Nat.lt_succ_self _, rfl⟩
      · rw [Stream.encodeAll_snoc hbytes encode, inbox, Source.pending_append, keeps.pending,
          List.append_assoc]
      · intro between
        obtain ⟨taken, left, rfl, queue⟩ := h.queue between
        refine ⟨taken, left ++ [replyFrame c.next r], List.append_assoc .., ?_⟩
        rw [inbox]
        exact queue.append (between n _ _ rfl encode)

/-- Reading takes some more bytes, or whole frames. -/
theorem Follows.await (h : Follows carry sent count c) (kind : MessageKind) (number : UInt64) :
    Follows carry sent count (Client.await (transport a carry) kind number c).state := by
  obtain ⟨hinbox, hnext, -⟩ := await_transport a carry kind number c
  refine ⟨hnext.trans h.next, h.replies, ?_, ?_⟩
  · obtain ⟨taken, hbytes⟩ := h.bytes
    obtain ⟨more, hmore⟩ := Stream.pending_readFrame c.connection.inbox
    refine ⟨taken ++ more, ?_⟩
    rw [hbytes, hmore, hinbox, List.append_assoc]
  · intro between
    obtain ⟨taken, left, hsplit, queue⟩ := h.queue between
    have read := Stream.readFrame_queue queue
    rw [hinbox]
    generalize (Stream.readFrame c.connection.inbox).1 = received at read
    generalize (Stream.readFrame c.connection.inbox).2 = rest at read ⊢
    cases read with
    | failed same => exact ⟨taken, left, hsplit, same⟩
    | ended nothing same => exact ⟨taken, [], nothing ▸ hsplit, same⟩
    | @frame first others _ split fewer =>
        refine ⟨taken ++ [first], others, ?_, fewer⟩
        rw [hsplit, split, List.append_assoc]
        rfl

/-- A frame that the client reads is one that the server sent, or it stands astride of them. -/
theorem Follows.origin (h : Follows carry sent count c) {f : Frame}
    (hread : (Stream.readFrame c.connection.inbox).1 = .ok (some f)) :
    f ∈ sent ∨ ¬ FailsBetween carry ∧ Astride f sent := by
  by_cases between : FailsBetween carry
  · obtain ⟨taken, left, rfl, queue⟩ := h.queue between
    have read := Stream.readFrame_queue queue
    generalize (Stream.readFrame c.connection.inbox).2 = rest at read
    rw [hread] at read
    cases read with
    | frame split => exact .inl (List.mem_append_right _ (split ▸ List.mem_cons_self ..))
  · obtain ⟨taken, hbytes⟩ := h.bytes
    obtain ⟨bytes, hencode, hpending⟩ := Stream.readFrame_taken (Prod.ext hread rfl)
    rw [hpending] at hbytes
    by_cases aligned : taken.length % (Limits.frameHeaderBytes + Reply.bytes) = 0
    · refine .inl (mem_of_aligned ?_ hencode hbytes aligned)
      intro g hg
      obtain ⟨i, r, -, rfl⟩ := h.replies g hg
      exact r.length_encode
    · exact .inr ⟨between, taken, bytes, _, hencode, hbytes, aligned⟩

/-- Of the frames that the server sent, only the last has the number of the call. -/
theorem Follows.own_of_mem (h : Follows carry sent count c) (room : count < 2 ^ 64)
    {own : Option Reply} {payload : Bytes}
    (hmem : ⟨.reply, c.next, payload⟩ ∈ sent ++ answer c.next own) :
    ∃ r, own = some r ∧ payload = r.encode := by
  rcases List.mem_append.mp hmem with hmem | hmem
  · obtain ⟨i, r, hi, hf⟩ := h.replies _ hmem
    have hnumber : c.next = UInt64.ofNat i := congrArg Frame.request hf
    rw [h.next] at hnumber
    have hcount := congrArg UInt64.toNat hnumber
    rw [UInt64.toNat_ofNat_of_lt' room, UInt64.toNat_ofNat_of_lt' (Nat.lt_trans hi room)] at hcount
    exact absurd hcount.symm (Nat.ne_of_lt hi)
  · cases own with
    | none => cases hmem
    | some r => exact ⟨r, rfl, congrArg Frame.payload (List.mem_singleton.mp hmem)⟩

/-- A reply arrives as what it is: its status is the one that its code stands for. -/
def Arrives (reply : Reply) : Prop := Status.ofCode reply.status.code = reply.status

/-- What a client got in a call: the authority's reply to it, or a frame astride of the replies. -/
def Rightful (carry : Nat → Bytes → List Arrival) (sent : List Frame) (call : Call) : Prop :=
  (∀ reply, call.own = some reply → Arrives reply) → ∀ reply, call.result = .ok reply →
    call.own = some reply ∨
      ¬ FailsBetween carry ∧ ∃ payload, Reply.decode? payload = some reply ∧
        Astride ⟨.reply, call.number, payload⟩ sent

/-- **What a call gets.** -/
theorem Follows.call (h : Follows carry sent count c) (keeps : Keeps carry) (room : count < 2 ^ 64)
    (a : Authority σ) (request : Request) :
    (∃ count' ≤ count + 1, Follows carry (sent ++ answer c.next (own a c.connection request)) count'
      ((Client.authority (transport a carry)).answer request c).state) ∧
    Rightful carry (sent ++ answer c.next (own a c.connection request))
      ⟨c.next, own a c.connection request,
        ((Client.authority (transport a carry)).answer request c).result⟩ := by
  have hcalling := calling_answer keeps a request c
  generalize (Client.authority (transport a carry)).answer request c = outcome at hcalling ⊢
  cases hcalling with
  | @unsent error c' events unanswered inbox next =>
      rw [unanswered, append_answer_none]
      refine ⟨?_, fun _ => nofun⟩
      -- a request that is refused takes no number, one that is too long takes one
      rcases next with next | next
      · exact ⟨count, Nat.le_succ _, next.trans h.next, h.replies, inbox ▸ h.bytes,
          inbox ▸ h.queue⟩
      · have hsame := h.answered keeps .nothing
          (inbox.trans (List.append_nil _).symm : c'.connection.inbox = _)
        rw [append_answer_none] at hsame
        exact ⟨count + 1, Nat.le_refl _, next.trans hsame.next, hsame.replies, hsame.bytes,
          hsame.queue⟩
  | @sent kind l more answered inbox =>
      have hwaiting := h.answered keeps answered inbox
      refine ⟨⟨count + 1, Nat.le_refl _, hwaiting.await kind c.next⟩, ?_⟩
      intro arrives reply hresult
      obtain ⟨payload, hread, hdecode⟩ :=
        (await_transport a carry kind c.next ⟨l, c.next + 1⟩).2.2 reply hresult
      -- the frame that was read is one that was sent, or it is astride of several
      rcases hwaiting.origin hread with hmem | ⟨within, astride⟩
      · obtain ⟨r, hown, rfl⟩ := h.own_of_mem room hmem
        rw [Reply.decode?_encode_of_code (arrives r hown)] at hdecode
        exact .inl (hown.trans hdecode)
      · exact .inr ⟨within, payload, hdecode, astride⟩

/-! ### All calls -/

/-- Every call of a run gets the reply that its state calls for. -/
theorem Follows.calls {requests : List Request} (h : Follows carry sent count c)
    (keeps : Keeps carry) (room : count + requests.length ≤ 2 ^ 64) (a : Authority σ)
    {before after : List Call} {call : Call}
    (hcalls : calls a carry requests c = before ++ call :: after) :
    Rightful carry (sent ++ answers (before ++ [call])) call := by
  induction requests generalizing c sent count before with
  | nil => cases before <;> cases hcalls
  | cons request rest ih =>
      rw [List.length_cons] at room
      obtain ⟨⟨count', hle, hnext⟩, hrightful⟩ := h.call keeps (by omega) a request
      rw [Link.calls] at hcalls
      cases before with
      | nil =>
          obtain ⟨rfl, -⟩ := List.cons.inj hcalls
          rwa [List.nil_append, answers, List.flatMap_cons, List.flatMap_nil, List.append_nil]
      | cons first before =>
          obtain ⟨rfl, hrest⟩ := List.cons.inj hcalls
          have hall := ih hnext (by omega) hrest
          rwa [List.append_assoc] at hall

/-- **A reply is attributed to the call that it belongs to**, unless a read of the client has failed
within a frame and, later on, the bytes of replies that were cut spell a reply of their own.  The
calls are those of a client over the link, which may fail or not; each reply that a client gets is
the one that the authority gave to that call's own request, or it stands astride of the replies
given so far, with the number of the call. -/
theorem calls_rightful (keeps : Keeps carry) (a : Authority σ) (s : σ) {requests : List Request}
    (few : requests.length < 2 ^ 64)
    (arrives : ∀ call ∈ calls a carry requests { connection := { authority := s } },
      ∀ reply, call.own = some reply → Arrives reply) :
    ((Client.authority (transport a carry)).replies requests
        { connection := { authority := s } }).1 =
      (calls a carry requests { connection := { authority := s } }).map Call.result ∧
    ∀ before call after,
      calls a carry requests { connection := { authority := s } } = before ++ call :: after →
        ∀ reply, call.result = .ok reply → call.own = some reply ∨
          ¬ FailsBetween carry ∧ ∃ payload, Reply.decode? payload = some reply ∧
            Astride ⟨.reply, call.number, payload⟩ (answers (before ++ [call])) := by
  refine ⟨(results_calls ..).symm, fun before call after hcalls => ?_⟩
  have hrightful := (follows_start s).calls keeps (by omega) a hcalls
  rw [List.nil_append] at hrightful
  refine hrightful (arrives call ?_)
  rw [hcalls]
  exact List.mem_append_right _ (List.mem_cons_self ..)

namespace Small

/-- A reply whose bytes are the header of a reply to request 2. -/
def headerLike : Reply := ⟨.other 0x1C000000, some ⟨0x03000100, by decide⟩, ⟨0⟩, 0x02000000⟩

/-- The second handle that an authority gives out. -/
def eighth : Handle := ⟨8, by decide⟩

/-- An authority that answers twice, first with what reads as a header. -/
def script : Script := { answers := [.ok headerLike, .ok ⟨.success, some eighth, ⟨1⟩, 1⟩] }

/-- One query for each of the two answers. -/
def requests : List Request := [.query .first, .query eighth]

/-- Between the header and the payload of the first reply, a read would block. -/
def cut (_ : Nat) (bytes : Bytes) : List Arrival :=
  match Frame.decode bytes with
  | .error _ => [.chunk bytes]
  | .ok f =>
      if f.kind = .reply ∧ f.request = 1 then
        [.chunk (bytes.take 16), .failure .wouldBlock, .chunk (bytes.drop 16)]
      else [.chunk bytes]

theorem keeps_cut : Keeps cut := by
  refine ⟨fun n bytes => ?_, fun n f bytes asking hf => ?_⟩
  · unfold cut
    split
    · exact List.append_nil bytes
    · split
      · show bytes.take 16 ++ (bytes.drop 16 ++ []) = bytes
        rw [List.append_nil, List.take_append_drop]
      · exact List.append_nil bytes
  · have hkind : ¬ (f.kind = .reply ∧ f.request = 1) := by
      rintro ⟨hkind, -⟩
      rw [Frame.isAsking, hkind] at asking
      cases asking
    simp only [cut, Frame.decode_encode hf, if_neg hkind]
    exact Source.delivers_chunk bytes

theorem calls_cut : calls Script.authority cut requests { connection := { authority := script } } =
    [⟨1, some headerLike, .error (.system (.plain .wouldBlock))⟩,
      ⟨2, some ⟨.success, some eighth, ⟨1⟩, 1⟩, .ok headerLike⟩] := by
  cbv

end Small

/-- The first read fails behind the header, and the second call takes the payload for its own. -/
theorem calls_rightful_small : ∃ payload, Reply.decode? payload = some Small.headerLike ∧
    Astride ⟨.reply, 2, payload⟩
      [replyFrame 1 Small.headerLike, replyFrame 2 ⟨.success, some Small.eighth, ⟨1⟩, 1⟩] := by
  have arrives : ∀ call ∈ calls Script.authority Small.cut Small.requests
      { connection := { authority := Small.script } },
      ∀ reply, call.own = some reply → Arrives reply := by
    rw [Small.calls_cut, List.forall_mem_cons, List.forall_mem_singleton]
    exact ⟨by rintro _ ⟨⟩; exact rfl, by rintro _ ⟨⟩; exact rfl⟩
  obtain ⟨-, hall⟩ := calls_rightful Small.keeps_cut Script.authority Small.script
    (by decide : Small.requests.length < 2 ^ 64) arrives
  rcases hall [_] _ [] Small.calls_cut Small.headerLike rfl with hown | ⟨-, hastride⟩
  · exact absurd hown (by decide)
  · exact hastride

/-- **A call can get the reply of another**: the second one gets that of the first. -/
theorem reply_of_another : Keeps Small.cut ∧
    ∃ call ∈ calls Script.authority Small.cut Small.requests
        { connection := { authority := Small.script } },
      (∀ reply, call.own = some reply → Arrives reply) ∧
        ∃ reply, call.result = .ok reply ∧ call.own ≠ some reply := by
  refine ⟨Small.keeps_cut, ⟨2, some ⟨.success, some Small.eighth, ⟨1⟩, 1⟩, .ok Small.headerLike⟩,
    ?_, ?_, Small.headerLike, rfl, by decide⟩
  · rw [Small.calls_cut]
    exact List.mem_cons_of_mem _ (List.mem_cons_self ..)
  · rintro _ ⟨⟩
    rfl

end Link

end SharedSync
