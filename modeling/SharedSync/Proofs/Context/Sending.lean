import SharedSync.Proofs.Authority.Writing
import SharedSync.Proofs.Context.Requests

/-!
# Context — which creations are sent

A context checks the attributes of a creation for the length of the name, and then calls the
authority, here over a stream that takes all it is given.  The call can still fail before anything
is written: name and descriptor together may be too long for a frame.

* `unsent_create`: what is not sent leaves the context and the stream as they were.
* `written_iff_room`: of the requests that pass the check, just those with room in a frame are
  written.
* `valid_never_sent`: so there are attributes that pass the check and are never sent.
-/

namespace SharedSync

namespace Context

open CreateRequest (safeDescriptor)

variable {c : Context} {map : Mapper} {request : CreateRequest} {s : Client Stream}

/-- The check passes just for valid requests. -/
theorem validate_eq_ok_iff : validate request = .ok () ↔ request.Valid := by
  rcases request with ⟨type, access, low, high, - | a⟩
  · exact iff_of_true rfl nofun
  · constructor
    · rintro h _ ⟨⟩
      exact h
    · exact fun h => h a rfl

theorem exists_runtime (on : c.isEnabled = true) : ∃ rt, c.runtime = some rt :=
  Option.isSome_iff_exists.mp on

/-- What the check refuses, the authority is not asked for. -/
theorem create_of_invalid {σ : Type} (on : c.isEnabled = true) {fault : AttributesFault}
    (h : validate request = .error fault) (a : Authority σ) (s : σ) :
    c.create a map request s = ⟨.error (.invalidAttributes fault), (c, s), []⟩ := by
  obtain ⟨rt, hrt⟩ := exists_runtime on
  simp only [create, hrt, h]

/-- If the authority is not reached, its error is that of the creation. -/
theorem create_of_error {σ : Type} (on : c.isEnabled = true) (valid : validate request = .ok ())
    {a : Authority σ} {s s' : σ} {error : SyncError} {events : List Event}
    (h : a.create request s = ⟨.error error, s', events⟩) :
    c.create a map request s = ⟨.error error, (c, s'), events⟩ := by
  obtain ⟨rt, hrt⟩ := exists_runtime on
  simp only [create, hrt, valid, h]

/-- However it ends, a creation leaves the authority as its one request does. -/
theorem state_create {σ : Type} (on : c.isEnabled = true) (valid : validate request = .ok ())
    (a : Authority σ) (s : σ) :
    (c.create a map request s).state.2 = (a.create request s).state := by
  obtain ⟨rt, hrt⟩ := exists_runtime on
  simp only [create, hrt, valid]
  cases (a.create request s).result with
  | error error => rfl
  | ok reply =>
      cases hh : createdHandle reply with
      | error error => simp only [hh]
      | ok handle => simp only [hh]

/-! ### Over a stream -/

/-- How a creation ends that is not sent.  Only the last two have passed the check. -/
inductive Unsent (request : CreateRequest) (c : Context) (s : Client Stream) :
    Outcome (Context × Client Stream) (Except SyncError Created) → Prop where
  | invalid {fault} (h : validate request = .error fault) :
      Unsent request c s ⟨.error (.invalidAttributes fault), (c, s), []⟩
  | refused {fault} (valid : request.Valid) (h : request.encode = .error fault) :
      Unsent request c s ⟨.error (.invalidAttributes fault), (c, s), []⟩
  | oversized {payload} (valid : request.Valid) (encode : request.encode = .ok payload)
      (long : Frame.maxPayload < payload.length) :
      Unsent request c s ⟨.error (.ofFrameError (.payloadTooLarge payload.length)),
        (c, { s with next := s.next + 1 }), []⟩

/-- A payload that is too long for a frame stays here. -/
theorem create_of_oversized (on : c.isEnabled = true) (valid : request.Valid) {payload : Bytes}
    (encode : request.encode = .ok payload) (long : Frame.maxPayload < payload.length)
    (map : Mapper) (s : Client Stream) :
    c.create (Client.authority Stream.transport) map request s =
      ⟨.error (.ofFrameError (.payloadTooLarge payload.length)),
        (c, { s with next := s.next + 1 }), []⟩ := by
  exact create_of_error on (validate_eq_ok_iff.mpr valid)
    (Client.answer_of_oversized Stream.transport (.create encode) rfl long)

/-- A creation that is invalid or has no room is not sent. -/
theorem unsent_create (on : c.isEnabled = true) (h : ¬ (request.Valid ∧ request.HasRoom))
    (map : Mapper) (s : Client Stream) :
    Unsent request c s (c.create (Client.authority Stream.transport) map request s) := by
  cases hvalidate : validate request with
  | error fault =>
      rw [create_of_invalid on hvalidate]
      exact .invalid hvalidate
  | ok done =>
      have valid := validate_eq_ok_iff.mp hvalidate
      have full : ¬ request.HasRoom := fun room => h ⟨valid, room⟩
      cases hencode : request.encode with
      | error fault =>
          rw [create_of_error on hvalidate (Client.answer_of_refused Stream.transport hencode s)]
          exact .refused valid hencode
      | ok payload =>
          have long : Frame.maxPayload < payload.length := by
            rw [CreateRequest.length_of_encode hencode]
            exact Nat.not_le.mp full
          rw [create_of_oversized on valid hencode long]
          exact .oversized valid hencode long

/-- A valid creation with room is written in one frame. -/
theorem written_create (on : c.isEnabled = true) (takes : s.connection.sink.Takes)
    (valid : request.Valid) (room : request.HasRoom) (map : Mapper) :
    ∃ payload bytes, request.encode = .ok payload ∧
      Frame.encode ⟨.createObject, s.next, payload⟩ = .ok bytes ∧
      (c.create (Client.authority Stream.transport) map request s).state.2.output =
        s.output ++ bytes := by
  obtain ⟨payload, hencode, hle⟩ := CreateRequest.fits_iff.mpr ⟨valid, room⟩
  obtain ⟨bytes, hbytes⟩ := @Frame.exists_encode ⟨.createObject, s.next, payload⟩ hle
  refine ⟨payload, bytes, hencode, hbytes, ?_⟩
  have hframe := Request.frame?_of_encode hencode s.next
  have hsendable : Frame.isSendable ⟨.createObject, s.next, payload⟩ = true := decide_eq_true hle
  obtain ⟨written, hwritten, houtput⟩ :=
    ((Client.called_answer takes (.create request)).wrote takes).output
  rw [hframe, Option.toList_some, List.filter_cons_of_pos hsendable, List.filter_nil,
    Stream.encodeAll_singleton hbytes] at hwritten
  obtain rfl := Except.ok.inj hwritten
  rw [state_create on (validate_eq_ok_iff.mpr valid)]
  exact houtput

/-- **Of the creations whose attributes pass the check, just those with room in a frame are
written**, and every one is whose descriptor is not too long.  All others fail with the context and
the stream as they were: with invalid attributes if the check fails, or a length field is too small;
else because no frame can hold the payload. -/
theorem written_iff_room (on : c.isEnabled = true) (takes : s.connection.sink.Takes)
    (map : Mapper) (request : CreateRequest) :
    (request.Valid → request.HasRoom → ∃ payload bytes, request.encode = .ok payload ∧
      Frame.encode ⟨.createObject, s.next, payload⟩ = .ok bytes ∧
      (c.create (Client.authority Stream.transport) map request s).state.2.output =
        s.output ++ bytes) ∧
    (¬ (request.Valid ∧ request.HasRoom) →
      Unsent request c s (c.create (Client.authority Stream.transport) map request s)) ∧
    (request.Valid → (∀ a, request.attributes = some a → a.descriptor.length ≤ safeDescriptor) →
      request.HasRoom) :=
  ⟨fun valid room => written_create on takes valid room map,
    fun unfit => unsent_create on unfit map s, CreateRequest.hasRoom_of_descriptor⟩

namespace Small

/-- A request for a semaphore with a name and a descriptor. -/
def sealed : CreateRequest where
  low := 2
  high := 5
  attributes := some { name := some "s", descriptor := [1, 2] }

/-- Five numbers, four more, the descriptor and the name. -/
def sealedPayload : Bytes :=
  [1, 0, 0, 0, 0, 0, 0, 0, 2, 0, 0, 0, 5, 0, 0, 0, 20, 0, 0, 0,
   0, 0, 0, 0, 0, 0, 0, 0, 2, 0, 0, 0, 2, 0, 0, 0, 1, 2, 0x73, 0]

theorem valid_sealed : sealed.Valid := by
  rintro a ⟨⟩
  rw [ObjectAttributes.validate_eq_ok_iff]
  decide +kernel

end Small

/-- A creation with a name and a descriptor is written, though what is read then is no reply. -/
theorem written_iff_room_small :
    World.Small.context.isEnabled = true ∧ Client.Small.near.sink.Takes ∧
    (create (Client.authority Stream.transport) Small.refuse Small.sealed
      World.Small.context (Client.ofStream Client.Small.near)).state.2.output =
      [0, 0, 0, 52, 0, 1, 0, 1, 0, 0, 0, 0, 0, 0, 0, 1] ++ Small.sealedPayload := by
  have on : World.Small.context.isEnabled = true := by decide +kernel
  have takes : Client.Small.near.sink.Takes := fun _ => .inr ⟨2, rfl⟩
  refine ⟨on, takes, ?_⟩
  obtain ⟨hwritten, -, hroom⟩ := written_iff_room (s := Client.ofStream Client.Small.near) on takes
    Small.refuse Small.sealed
  have room : Small.sealed.HasRoom := hroom Small.valid_sealed (by rintro a ⟨⟩; decide)
  obtain ⟨payload, bytes, hpayload, hbytes, houtput⟩ := hwritten Small.valid_sealed room
  have hp : Small.sealed.encode = .ok Small.sealedPayload := by cbv
  obtain rfl := Except.ok.inj (hpayload.symm.trans hp)
  have hb : Frame.encode ⟨.createObject, 1, Small.sealedPayload⟩ =
      .ok ([0, 0, 0, 52, 0, 1, 0, 1, 0, 0, 0, 0, 0, 0, 0, 1] ++ Small.sealedPayload) := by
    cbv
  rw [houtput, Except.ok.inj (hbytes.symm.trans hb)]
  rfl

/-- **Attributes can pass the check and never be sent**: a descriptor of a mebibyte has a payload,
but no frame holds it, and a creation with it fails for the frame. -/
theorem valid_never_sent :
    CreateRequest.Small.bulky.Valid ∧
    (∃ payload, CreateRequest.Small.bulky.encode = .ok payload ∧
      ∀ n, Frame.encode ⟨.createObject, n, payload⟩ = .error (.payloadTooLarge 1048612)) ∧
    ∀ (c : Context) (map : Mapper) (s : Client Stream), c.isEnabled = true →
      c.create (Client.authority Stream.transport) map CreateRequest.Small.bulky s =
        ⟨.error (.ofFrameError (.payloadTooLarge 1048612)), (c, { s with next := s.next + 1 }), []⟩ := by
  have valid := CreateRequest.Small.valid_described (List.replicate 1048576 0)
  have encode := CreateRequest.Small.encode_bulky
  have hlength := CreateRequest.length_of_encode encode
  rw [CreateRequest.Small.payloadLength_bulky] at hlength
  have long : Frame.maxPayload < 1048612 := by decide
  rw [← hlength] at long ⊢
  exact ⟨valid, ⟨_, encode, fun n => if_pos long⟩,
    fun c map s on => create_of_oversized on valid encode long map s⟩

end Context

end SharedSync
