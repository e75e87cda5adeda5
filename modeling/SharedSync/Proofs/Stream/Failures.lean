import SharedSync.Proofs.Stream.Fronts

/-!
# Streams — reads that fail

A read that fails loses no bytes that are still to come, but what was read before it in the same
frame is gone.

* `readFrame_taken`: whatever fails, a frame that is read is just the bytes that were taken for it.
* `Queue`: arrivals in which reads fail only between frames.
* `readFrame_queue`: then a read that fails takes no frame, and any other takes the next.
-/

namespace SharedSync

namespace Source

variable {arrivals more : List Arrival}

theorem pending_append (arrivals more : List Arrival) :
    pending (arrivals ++ more) = pending arrivals ++ pending more := List.flatMap_append

/-- The bytes that were taken stand in front of those that are left. -/
theorem pending_take (want : Nat) (arrivals : List Arrival) :
    pending arrivals = (take want arrivals).bytes ++ pending (take want arrivals).rest := by
  induction arrivals generalizing want with
  | nil => cases want <;> rfl
  | cons a arrivals ih =>
      cases want with
      | zero => rfl
      | succ want =>
          cases a with
          | failure kind =>
              rw [take]
              split
              · exact ih (want + 1)
              · rfl
          | chunk chunk =>
              rw [take]
              split
              · next hall =>
                  have hchunk := List.take_append_drop (want + 1) chunk
                  rw [List.isEmpty_iff.mp hall, List.append_nil] at hchunk
                  simp only [hchunk, List.append_assoc, ← ih]
                  rfl
              · show chunk ++ pending arrivals =
                  chunk.take (want + 1) ++ (chunk.drop (want + 1) ++ pending arrivals)
                rw [← List.append_assoc, List.take_append_drop]

/-- A take that has all it wants does not see what comes later. -/
theorem take_append {want : Nat} (h : (take want arrivals).stop = .full) :
    take want (arrivals ++ more) =
      { take want arrivals with rest := (take want arrivals).rest ++ more } := by
  induction arrivals generalizing want with
  | nil =>
      cases want with
      | zero => simp only [take, List.nil_append]
      | succ want => cases h
  | cons a arrivals ih =>
      cases want with
      | zero => rfl
      | succ want =>
          cases a with
          | failure kind =>
              rw [List.cons_append, take]
              rw [take] at h
              by_cases hk : kind = .interrupted
              · rw [if_pos hk] at h ⊢
                rw [take, if_pos hk]
                exact ih h
              · rw [if_neg hk] at h
                cases h
          | chunk chunk =>
              rw [List.cons_append, take]
              rw [take] at h
              by_cases hall : (chunk.drop (want + 1)).isEmpty
              · rw [if_pos hall] at h ⊢
                rw [take, if_pos hall, ih h]
              · rw [if_neg hall, take, if_neg hall]
                rfl

end Source

namespace Stream

open Source (Delivers pending)

variable {arrivals more rest : List Arrival} {f : Frame}

/-! ### Failures anywhere -/

/-- How a read goes: it ends with the length field, or goes on to take what that announces. -/
inductive Reading (arrivals : List Arrival) :
    Except SyncError (Option Frame) → List Arrival → Prop where
  | length {front stop mid result} (field : Source.take 4 arrivals = ⟨front, stop, mid⟩)
      (nothing : ∀ found, result ≠ .ok (some found)) : Reading arrivals result mid
  | body {front mid body stop left result} (field : Source.take 4 arrivals = ⟨front, .full, mid⟩)
      (range : Frame.checkLength (Frame.lengthField front) = .ok ())
      (taken : Source.take (Frame.lengthField front).toNat mid = ⟨body, stop, left⟩)
      (decoded : ∀ found, result = .ok (some found) →
        stop = .full ∧ Frame.decode (front ++ body) = .ok found) : Reading arrivals result left

theorem error_ne_some (error : SyncError) (found : Frame) :
    (.error error : Except SyncError (Option Frame)) ≠ .ok (some found) := by
  rintro ⟨⟩

/-- What `readFrame` does is one of the ways of reading. -/
theorem reading_readFrame (arrivals : List Arrival) :
    Reading arrivals (readFrame arrivals).1 (readFrame arrivals).2 := by
  -- the length field ends in one of three ways, and so does the body behind it
  rcases h₁ : Source.take 4 arrivals with ⟨front, stop, mid⟩
  cases stop with
  | ended =>
      by_cases hf : front.isEmpty
      · simp only [readFrame, readLength, h₁, hf, if_true]
        refine .length h₁ ?_
        rintro _ ⟨⟩
      · simp only [readFrame, readLength, h₁, hf, Bool.false_eq_true, if_false]
        exact .length h₁ (error_ne_some _)
  | failed kind =>
      simp only [readFrame, readLength, h₁]
      exact .length h₁ (error_ne_some _)
  | full =>
      cases hc : Frame.checkLength (Frame.lengthField front) with
      | error error =>
          simp only [readFrame, readLength, h₁, hc]
          exact .length h₁ (error_ne_some _)
      | ok done =>
          rcases h₂ : Source.take (Frame.lengthField front).toNat mid with ⟨body, stop, left⟩
          cases stop with
          | ended =>
              simp only [readFrame, readLength, readExact, h₁, hc, h₂]
              exact .body h₁ hc h₂ fun found h => absurd h (error_ne_some _ found)
          | failed kind =>
              simp only [readFrame, readLength, readExact, h₁, hc, h₂]
              exact .body h₁ hc h₂ fun found h => absurd h (error_ne_some _ found)
          | full =>
              cases hd : Frame.decode (front ++ body) with
              | error error =>
                  simp only [readFrame, readLength, readExact, h₁, hc, h₂, hd]
                  exact .body h₁ hc h₂ fun found h => absurd h (error_ne_some _ found)
              | ok found =>
                  simp only [readFrame, readLength, readExact, h₁, hc, h₂, hd]
                  refine .body h₁ hc h₂ ?_
                  rintro _ ⟨⟩
                  exact ⟨rfl, hd⟩

/-- A read takes bytes off the front, whatever comes of it. -/
theorem pending_readFrame (arrivals : List Arrival) :
    ∃ taken, pending arrivals = taken ++ pending (readFrame arrivals).2 := by
  have hfield := Source.pending_take 4 arrivals
  cases reading_readFrame arrivals with
  | @length front _ _ _ field =>
      rw [field] at hfield
      exact ⟨front, hfield⟩
  | @body front mid body _ _ _ field _ taken =>
      have hbody := Source.pending_take (Frame.lengthField front).toNat mid
      rw [field] at hfield
      rw [taken] at hbody
      exact ⟨front ++ body, by rw [hfield, hbody, List.append_assoc]⟩

/-- How a series of takes got a frame. -/
theorem readFrame_eq_some (h : readFrame arrivals = (.ok (some f), rest)) :
    ∃ front body mid, Source.take 4 arrivals = ⟨front, .full, mid⟩ ∧
      Frame.checkLength (Frame.lengthField front) = .ok () ∧
      Source.take (Frame.lengthField front).toNat mid = ⟨body, .full, rest⟩ ∧
      Frame.decode (front ++ body) = .ok f := by
  have hreading := reading_readFrame arrivals
  rw [h] at hreading
  cases hreading with
  | length _ nothing => exact absurd rfl (nothing f)
  | @body front mid body _ _ _ field range taken decoded =>
      obtain ⟨rfl, hd⟩ := decoded f rfl
      exact ⟨front, body, mid, field, range, taken, hd⟩

/-- **A frame that is read is just the bytes that were taken for it**, whatever failed before. -/
theorem readFrame_taken (h : readFrame arrivals = (.ok (some f), rest)) :
    ∃ bytes, f.encode = .ok bytes ∧ pending arrivals = bytes ++ pending rest := by
  obtain ⟨front, body, mid, h₁, hc, h₂, hd⟩ := readFrame_eq_some h
  have hfront : front.length = 4 := by
    have := @Source.length_take_full 4 arrivals (by rw [h₁])
    rwa [h₁] at this
  have hbody : body.length = (Frame.lengthField front).toNat := by
    have := @Source.length_take_full (Frame.lengthField front).toNat mid (by rw [h₂])
    rwa [h₂] at this
  have hfield : Frame.lengthField (front ++ body) = Frame.lengthField front := by
    have := @Frame.lengthField_take (front ++ body) 4 (Nat.le_refl 4)
    rwa [← hfront, List.take_left, eq_comm] at this
  have hspan : Frame.span (front ++ body) = (front ++ body).length := by
    rw [Frame.span, hfield, List.length_append, hfront, hbody]
  obtain ⟨hencode, -⟩ := Frame.encode_of_decode hd
  rw [hspan, List.take_length] at hencode
  refine ⟨front ++ body, hencode, ?_⟩
  have hp₁ := Source.pending_take 4 arrivals
  have hp₂ := Source.pending_take (Frame.lengthField front).toNat mid
  rw [h₁] at hp₁
  rw [h₂] at hp₂
  rw [hp₁, hp₂, List.append_assoc]

/-! ### Failures between frames -/

/-- A frame that is read is not affected by what comes later. -/
theorem readFrame_append (h : readFrame arrivals = (.ok (some f), rest)) (more : List Arrival) :
    readFrame (arrivals ++ more) = (.ok (some f), rest ++ more) := by
  obtain ⟨front, body, mid, h₁, hc, h₂, hd⟩ := readFrame_eq_some h
  have h₁' := @Source.take_append arrivals more 4 (by rw [h₁])
  have h₂' := @Source.take_append mid more (Frame.lengthField front).toNat (by rw [h₂])
  rw [h₁] at h₁'
  rw [h₂] at h₂'
  simp only [readFrame, readLength, readExact, h₁', hc, h₂', hd]

/-- Frames arrive one behind the other, each in any pieces; other failures than interruptions come
only between them. -/
inductive Queue : List Arrival → List Frame → Prop where
  | ended {gap} (empty : pending gap = []) : Queue gap []
  | next {gap pieces others : List Arrival} {first : Frame} {frames bytes}
      (empty : pending gap = []) (encode : first.encode = .ok bytes)
      (delivers : Delivers pieces bytes) (queue : Queue others frames) :
      Queue (gap ++ (pieces ++ others)) (first :: frames)

/-- What delivers no byte may stand in front of a queue. -/
theorem Queue.gap {gap : List Arrival} {frames : List Frame} (empty : pending gap = [])
    (h : Queue arrivals frames) : Queue (gap ++ arrivals) frames := by
  cases h with
  | ended empty' =>
      refine .ended ?_
      rw [Source.pending_append, empty, empty']
      rfl
  | next empty' encode delivers queue =>
      rw [← List.append_assoc]
      refine .next ?_ encode delivers queue
      rw [Source.pending_append, empty, empty']
      rfl

/-- Two queues one behind the other. -/
theorem Queue.append {frames others : List Frame} (h : Queue arrivals frames)
    (h' : Queue more others) : Queue (arrivals ++ more) (frames ++ others) := by
  induction h with
  | ended empty => exact h'.gap empty
  | next empty encode delivers _ ih =>
      rw [List.append_assoc, List.append_assoc]
      exact .next empty encode delivers ih

/-- What a read makes of a queue. -/
inductive Queue.Read (frames : List Frame) :
    Except SyncError (Option Frame) → List Arrival → Prop where
  | failed {error} {left : List Arrival} (same : Queue left frames) :
      Read frames (.error error) left
  | ended {left : List Arrival} (nothing : frames = []) (same : Queue left []) :
      Read frames (.ok none) left
  | frame {first : Frame} {others} {left : List Arrival} (split : frames = first :: others)
      (fewer : Queue left others) : Read frames (.ok (some first)) left

/-- In front of a frame, a read that fails takes nothing; an interruption is not seen. -/
theorem readFrame_failure (kind : FailureKind) (arrivals : List Arrival) :
    readFrame (.failure kind :: arrivals) =
      if kind = .interrupted then readFrame arrivals
      else (.error (.system (.plain kind)), arrivals) := by
  by_cases hk : kind = .interrupted
  · simp [readFrame, readLength, Source.take, hk]
  · simp [readFrame, readLength, Source.take, hk]

theorem readFrame_chunk_nil (arrivals : List Arrival) :
    readFrame (.chunk [] :: arrivals) = readFrame arrivals := by
  simp [readFrame, readLength, Source.take]

/-- **A read that fails takes no frame, and any other takes the next.** -/
theorem readFrame_queue {frames : List Frame} (h : Queue arrivals frames) :
    Queue.Read frames (readFrame arrivals).1 (readFrame arrivals).2 := by
  -- what is read of the gap, before anything else, is nothing
  have key : ∀ (gap arrivals : List Arrival), pending gap = [] → Queue arrivals frames →
      Queue.Read frames (readFrame arrivals).1 (readFrame arrivals).2 →
      Queue.Read frames (readFrame (gap ++ arrivals)).1 (readFrame (gap ++ arrivals)).2 := by
    intro gap arrivals empty queue read
    induction gap with
    | nil => exact read
    | cons a gap ih =>
        cases a with
        | failure kind =>
            have empty' : pending gap = [] := empty
            rw [List.cons_append, readFrame_failure]
            by_cases hk : kind = .interrupted
            · rw [if_pos hk]
              exact ih empty'
            · rw [if_neg hk]
              exact .failed (queue.gap empty')
        | chunk chunk =>
            obtain ⟨rfl, empty'⟩ := List.append_eq_nil_iff.mp empty
            rw [List.cons_append, readFrame_chunk_nil]
            exact ih empty'
  cases h with
  | ended empty =>
      have hend := key arrivals [] empty (.ended rfl) (.ended rfl (.ended rfl))
      rwa [List.append_nil] at hend
  | @next gap pieces others first frames bytes empty encode delivers queue =>
      have hqueue : Queue (pieces ++ others) (first :: frames) :=
        @Queue.next [] pieces others first frames bytes rfl encode delivers queue
      refine key gap (pieces ++ others) empty hqueue ?_
      rw [← List.append_nil bytes] at delivers
      obtain ⟨left, hread, hleft⟩ := readFrame_of_delivers encode delivers
      rw [readFrame_append hread others]
      exact .frame rfl (queue.gap hleft.pending)

end Stream

end SharedSync
