import SharedSync.Proofs.Context.Sending
import SharedSync.Proofs.Wire.Replies

/-!
# Context — what a status comes to

A creation that is sent is answered by four words, and the first of them decides: two statuses yield
an object, and every other is handed back with its code.

* `Client.Receives`: a creation is sent over any transport, and answered.
* `receives_of_delivers`: so it is over a stream that delivers the frame of the answer.
* `EndsBy`: how a creation ends that is answered by these words.
* `statuses_verbatim`: every creation that is answered ends so, and replies carry every word.
-/

namespace SharedSync

open Source (Delivers)

namespace Status

variable {raw : UInt32}

/-- Two codes stand for the statuses that yield an object. -/
theorem ofCode_yields_iff :
    (ofCode raw = success ∨ ofCode raw = objectNameExists) ↔ raw = 0 ∨ raw = 0x40000000 := by
  constructor
  · rintro (h | h)
    · exact .inl (by rw [← code_ofCode raw, h, code])
    · exact .inr (by rw [← code_ofCode raw, h, code])
  · rintro (rfl | rfl)
    · exact .inl (@ofCode_code_of_isNamed success rfl)
    · exact .inr (@ofCode_code_of_isNamed objectNameExists rfl)

end Status

namespace Client

variable {τ : Type} {t : Transport τ} {request : CreateRequest} {c : Client τ} {answer : Bytes}
  {reply : Reply}

/-- The creation is sent in its frame, and a reply with its number comes back. -/
def Receives (t : Transport τ) (request : CreateRequest) (answer : Bytes) (c : Client τ) : Prop :=
  ∃ payload bytes connection, request.encode = .ok payload ∧
    Frame.encode ⟨.createObject, c.next, payload⟩ = .ok bytes ∧
    t.send bytes c.connection = (.ok (), connection) ∧
    (t.receive connection).1 = .ok (some ⟨.reply, c.next, answer⟩)

/-- A request that was answered passed the check. -/
theorem Receives.valid (h : c.Receives t request answer) : request.Valid := by
  obtain ⟨payload, -, -, hencode, -⟩ := h
  exact CreateRequest.valid_of_encode hencode

/-- A client hands back the reply that it receives. -/
theorem Receives.result_create (h : c.Receives t request answer)
    (hanswer : Reply.decode? answer = some reply) :
    ((authority t).create request c).result = .ok reply := by
  obtain ⟨payload, bytes, connection, hencode, hframe, hsend, hreceive⟩ := h
  have haccept := accept_of_decode? hanswer c.next
  rcases hr : t.receive connection with ⟨received, connection'⟩
  rw [hr] at hreceive
  obtain rfl : received = _ := hreceive
  simp only [authority, hencode, call, hframe, hsend, await, hr, haccept]

/-- A request that fits is sent over a stream that accepts it, and the frame in front of what the
stream delivers is received. -/
theorem receives_of_delivers {c : Client Stream} (fits : (Request.create request).Fits)
    (accepts : c.connection.sink.Accepts) {answered tail : Bytes}
    (hanswered : Frame.encode ⟨.reply, c.next, answer⟩ = .ok answered)
    (delivers : Delivers c.connection.incoming (answered ++ tail)) :
    c.Receives Stream.transport request answer := by
  obtain ⟨payload, hencode, hle⟩ := fits
  obtain ⟨bytes, hbytes⟩ := @Frame.exists_encode ⟨.createObject, c.next, payload⟩ hle
  obtain ⟨sink, hsend, -, -⟩ := Sink.send_of_accepts accepts bytes
  obtain ⟨rest, hread, -⟩ := Stream.readFrame_of_delivers hanswered delivers
  refine ⟨payload, bytes, ⟨c.connection.incoming, sink⟩, hencode, hbytes, ?_, ?_⟩
  · simp only [Stream.transport, hsend]
  · simp only [Stream.transport, hread]

end Client

namespace Context

variable {σ τ : Type} {raw handle slot type : UInt32} {map : Mapper} {request : CreateRequest}
  {c : Context} {s : σ}

/-- A status that yields an object is not enough without a handle. -/
theorem createdHandle_of_unbound {reply : Reply}
    (yields : reply.status = .success ∨ reply.status = .objectNameExists)
    (unbound : reply.handle = none) :
    createdHandle reply = .error (.protocol (.noHandle reply.status)) := by
  rw [createdHandle, Status.yieldsObject_iff.mpr yields, unbound]
  rfl

/-- How a creation ends that is answered by these words, whatever the last of them says. -/
structure EndsBy (raw handle slot : UInt32) (c : Context)
    (ended : Outcome (Context × σ) (Except SyncError Created)) : Prop where
  /-- Every status that yields no object fails the creation, which adopts nothing, -/
  refused : raw ≠ 0 → raw ≠ 0x40000000 →
    ended.result = .error (.authority (Status.ofCode raw)) ∧ ended.state.1 = c
  /-- and converts back to its code. -/
  code : (Status.ofCode raw).code = raw
  /-- With the other two, the creation returns handle and slot, -/
  given : raw = 0 ∨ raw = 0x40000000 → ∀ bound : handle ≠ 0,
    ended.result = .ok ⟨Status.ofCode raw, ⟨handle, bound⟩, ⟨slot⟩⟩
  /-- or reports that there is no handle. -/
  unbound : raw = 0 ∨ raw = 0x40000000 → handle = 0 →
    ended.result = .error (.protocol (.noHandle (Status.ofCode raw))) ∧ ended.state.1 = c

/-- The words of the reply decide how a creation ends. -/
theorem endsBy_of_reply (on : c.isEnabled = true) (valid : request.Valid) {a : Authority σ}
    (h : (a.create request s).result = .ok (Reply.ofWords raw handle slot type)) :
    EndsBy raw handle slot c (c.create a map request s) := by
  obtain ⟨asked, hcreating, -⟩ := creating_create a map request c s
  have hresult := hcreating.result_of_reply on (validate_eq_ok_iff.mpr valid) h
  have hkept : ∀ error, (c.create a map request s).result = .error error →
      (c.create a map request s).state.1 = c :=
    (createsOnce a map request c s).kept
  constructor
  case code => exact Status.code_ofCode raw
  case refused =>
    intro hsuccess hexists
    have hrefused : ¬ (Status.ofCode raw = .success ∨ Status.ofCode raw = .objectNameExists) := by
      rw [Status.ofCode_yields_iff]
      exact not_or.mpr ⟨hsuccess, hexists⟩
    rw [createdHandle_of_refused hrefused] at hresult
    exact ⟨hresult, hkept _ hresult⟩
  case given =>
    intro hyields bound
    have hhandle : createdHandle (Reply.ofWords raw handle slot type) = .ok ⟨handle, bound⟩ :=
      createdHandle_eq_ok_iff.mpr
        ⟨Status.ofCode_yields_iff.mpr hyields, Handle.ofRaw?_raw ⟨handle, bound⟩⟩
    rw [hresult, hhandle]
    rfl
  case unbound =>
    rintro hyields rfl
    rw [createdHandle_of_unbound (Status.ofCode_yields_iff.mpr hyields) rfl] at hresult
    exact ⟨hresult, hkept _ hresult⟩

/-- **Replies carry every word, and the status decides.**  A creation that is answered returns
handle and slot if the status yields an object, and otherwise fails with the status that was sent. -/
theorem statuses_verbatim (t : Transport τ) (map : Mapper) (request : CreateRequest) :
    (∀ b r, Reply.Verbatim b r) ∧
    ∀ (c : Context) (s : Client τ) (raw handle slot type : UInt32), c.isEnabled = true →
      s.Receives t request (Reply.written raw handle slot type) →
        EndsBy raw handle slot c (c.create (Client.authority t) map request s) := by
  refine ⟨Reply.verbatim, fun c s raw handle slot type on received => ?_⟩
  exact endsBy_of_reply on received.valid
    (received.result_create (Reply.decode?_written raw handle slot type))

namespace Small

/-- The frame of a reply with a status that has no name, a handle and a slot. -/
def answered : Bytes :=
  [0, 0, 0, 28, 0, 1, 0, 3, 0, 0, 0, 0, 0, 0, 0, 1] ++ Reply.written 7 4 600 1

/-- A stream that delivers it and accepts everything. -/
def answering : Stream := { incoming := [.chunk answered], sink := { respond := fun _ => .all } }

end Small

/-- A creation that is answered by a status without a name fails with that status, and has not
adopted the object of the reply. -/
theorem statuses_verbatim_small :
    World.Small.context.isEnabled = true ∧
    (Client.ofStream Small.answering).Receives Stream.transport { low := 2, high := 5 }
      (Reply.written 7 4 600 1) ∧
    ((create (Client.authority Stream.transport) Small.refuse { low := 2, high := 5 }
      World.Small.context (Client.ofStream Small.answering)).result =
        .error (.authority (.other 7)) ∧
    (create (Client.authority Stream.transport) Small.refuse { low := 2, high := 5 }
      World.Small.context (Client.ofStream Small.answering)).state.1 = World.Small.context) := by
  have on : World.Small.context.isEnabled = true := by decide +kernel
  have valid : CreateRequest.Valid { low := 2, high := 5 } := nofun
  have fits := CreateRequest.fits_iff.mpr ⟨valid, CreateRequest.hasRoom_of_descriptor valid nofun⟩
  have accepts : Small.answering.sink.Accepts := ⟨fun _ => .inl rfl, rfl⟩
  have hanswered : Frame.encode ⟨.reply, 1, Reply.written 7 4 600 1⟩ = .ok Small.answered := by cbv
  have delivers : Delivers Small.answering.incoming (Small.answered ++ []) :=
    (List.append_nil Small.answered).symm ▸ Source.delivers_chunk Small.answered
  have received : (Client.ofStream Small.answering).Receives Stream.transport
      { low := 2, high := 5 } (Reply.written 7 4 600 1) :=
    Client.receives_of_delivers fits accepts hanswered delivers
  obtain ⟨-, hends⟩ := statuses_verbatim Stream.transport Small.refuse { low := 2, high := 5 }
  exact ⟨on, received, (hends _ _ 7 4 600 1 on received).refused (by decide) (by decide)⟩

end Context

end SharedSync
