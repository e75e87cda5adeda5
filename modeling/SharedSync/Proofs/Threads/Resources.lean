import Mathlib.Data.List.Nodup
import SharedSync.Proofs.Threads.Touches

/-!
# Threads — who has a resource

A resource belongs to the thread that made it until it is published or released; then it belongs
to its cell, or is gone.

* `Sound`, `Fits`: cells and live resources are those of the log, and every thread's call is where
  the cells say, alone with a resource of its own (`Owns`).
* `Sound.of_make`, `Sound.of_publish`, `Sound.of_release`: the three deeds keep that.
* `Respects`: what a step leaves alone, so that the other threads' calls still fit.
* `kept`: every step keeps all that.
-/

namespace SharedSync.FirstTouch

open Threads (Kept under)

variable {shape : Shape} {programs : List (List Request)} {log log' : List (Nat × Deed)}
  {s s' : Shared} {t t' : Thread} {deed : Option Deed} {i : Nat}

/-! ### Cells and resources fit the log -/

/-- A resource that was published or released. -/
def Spent (log : List (Nat × Deed)) (resource : Nat) : Prop :=
  ∃ j cell, (j, .published cell resource) ∈ log ∨ (j, .released cell resource) ∈ log

/-- Thread `i` made the resource, and nothing came of it yet. -/
def Owns (i : Nat) (log : List (Nat × Deed)) (cell : Cell) (resource : Nat) : Prop :=
  (i, .made cell resource) ∈ log ∧ ¬ Spent log resource

/-- A page, or a chunk, that was made and not released. -/
def Live (log : List (Nat × Deed)) (isPage : Bool) (resource : Nat) : Prop :=
  ∃ i cell, cell.isPage = isPage ∧ (i, .made cell resource) ∈ log ∧
    (i, .released cell resource) ∉ log

/-- The thread is at the cell with a resource of its own, which it has not published. -/
def Thread.Holds (t : Thread) (cell : Cell) (resource : Nat) : Prop :=
  ∃ request, t.current = some (request, cell, .publish resource) ∨
    ∃ winner, t.current = some (request, cell, .release resource winner)

/-- Cells and live resources are those that the log tells of. -/
structure Sound (shape : Shape) (log : List (Nat × Deed)) (s : Shared) : Prop where
  nodup : log.Nodup
  maker : ∀ i j cell cell' r, (i, .made cell r) ∈ log → (j, .made cell' r) ∈ log →
    i = j ∧ cell = cell'
  fresh : ∀ i cell r, (i, .made cell r) ∈ log → r < s.fresh
  entry : ∀ cell r, s.entry cell = some r ↔ ∃ i, (i, .published cell r) ∈ log
  published : ∀ i cell r, (i, .published cell r) ∈ log → (i, .made cell r) ∈ log
  released : ∀ i cell r, (i, .released cell r) ∈ log → (i, .made cell r) ∈ log
  apart : ∀ i j cell cell' r, (i, .published cell r) ∈ log → (j, .released cell' r) ∉ log
  nodup_live : ∀ b, (s.stock b).live.Nodup
  live : ∀ b r, r ∈ (s.stock b).live ↔ Live log b r
  within : ∀ cell r, s.entry cell = some r → cell.Within shape s

/-- What the call of thread `i` relies on. -/
def Phase.Fits (i : Nat) (log : List (Nat × Deed)) (s : Shared) (cell : Cell) : Phase → Prop
  | publish own => Owns i log cell own
  | countPublished own => s.entry cell = some own
  | release own winner => Owns i log cell own ∧ s.entry cell = some winner
  | countReleased winner => s.entry cell = some winner
  | load | make | countFailed => True

/-- The calls of thread `i` are where the log and the cells say. -/
structure Fits (shape : Shape) (programs : List (List Request)) (i : Nat)
    (log : List (Nat × Deed)) (s : Shared) (t : Thread) : Prop where
  calls : programs[i]? = some t.calls
  current : ∀ request cell phase, t.current = some (request, cell, phase) →
    request.At shape cell ∧ cell.Within shape s ∧ phase.Fits i log s cell
  fate : ∀ cell r, (i, .made cell r) ∈ log →
    (i, .published cell r) ∈ log ∨ (i, .released cell r) ∈ log ∨ t.Holds cell r
  ended : ∀ request address, (request, some address) ∈ t.ended →
    s.entry (request.target shape) = some address.resource ∧
      address.offset = request.offset shape

/-- What thread `i` leaves alone in a step: the cells that have a resource, and the resources of
other threads. -/
structure Respects (i : Nat) (log : List (Nat × Deed)) (s : Shared) (log' : List (Nat × Deed))
    (s' : Shared) : Prop where
  logged : ∀ j d, (j, d) ∈ log → (j, d) ∈ log'
  own : ∀ j d, (j, d) ∈ log' → j ≠ i → (j, d) ∈ log
  entry : ∀ cell r, s.entry cell = some r → s'.entry cell = some r
  owns : ∀ j cell r, j ≠ i → Owns j log cell r → Owns j log' cell r

theorem Cell.Within.mono {cell : Cell} (h : cell.Within shape s)
    (he : ∀ cell r, s.entry cell = some r → s'.entry cell = some r) : cell.Within shape s' := by
  cases cell with
  | chunk position => exact h
  | page number =>
      obtain ⟨hlt, hne⟩ := h
      obtain ⟨r, hr⟩ := Option.ne_none_iff_exists'.mp hne
      exact ⟨hlt, by rw [he _ r hr]; exact Option.some_ne_none r⟩

/-! A new deed, and what is live. -/

/-- A resource that is made is there. -/
theorem live_cons_made {cell : Cell} {own r : Nat} {b : Bool} (hown : ¬ Spent log own) :
    Live ((i, .made cell own) :: log) b r ↔ (cell.isPage = b ∧ r = own) ∨ Live log b r := by
  constructor
  · rintro ⟨j, c, hb, hmade, hkept⟩
    rcases List.mem_cons.mp hmade with hnew | hold
    · cases hnew
      exact .inl ⟨hb, rfl⟩
    · exact .inr ⟨j, c, hb, hold, fun h => hkept (List.mem_cons_of_mem _ h)⟩
  · rintro (⟨hb, rfl⟩ | ⟨j, c, hb, hmade, hkept⟩)
    · exact ⟨i, cell, hb, List.mem_cons_self, fun h =>
        hown ⟨i, cell, .inr ((List.mem_cons.mp h).resolve_left nofun)⟩⟩
    · exact ⟨j, c, hb, List.mem_cons_of_mem _ hmade, fun h =>
        hkept ((List.mem_cons.mp h).resolve_left nofun)⟩

/-- Publishing a resource keeps it there. -/
theorem live_cons_published {cell : Cell} {own r : Nat} {b : Bool} :
    Live ((i, .published cell own) :: log) b r ↔ Live log b r := by
  constructor
  · rintro ⟨j, c, hb, hmade, hkept⟩
    exact ⟨j, c, hb, (List.mem_cons.mp hmade).resolve_left nofun, fun h =>
      hkept (List.mem_cons_of_mem _ h)⟩
  · rintro ⟨j, c, hb, hmade, hkept⟩
    exact ⟨j, c, hb, List.mem_cons_of_mem _ hmade, fun h =>
      hkept ((List.mem_cons.mp h).resolve_left nofun)⟩

namespace Sound

variable (hs : Sound shape log s)
include hs

/-- A resource that is released is gone, and no other. -/
theorem live_cons_released {cell : Cell} {own r : Nat} {b : Bool}
    (hown : (i, .made cell own) ∈ log) :
    Live ((i, .released cell own) :: log) b r ↔ Live log b r ∧ r ≠ own := by
  constructor
  · rintro ⟨j, c, hb, hmade, hkept⟩
    have hold : (j, .made c r) ∈ log := (List.mem_cons.mp hmade).resolve_left nofun
    refine ⟨⟨j, c, hb, hold, fun h => hkept (List.mem_cons_of_mem _ h)⟩, ?_⟩
    rintro rfl
    obtain ⟨rfl, rfl⟩ := hs.maker j i c cell r hold hown
    exact hkept List.mem_cons_self
  · rintro ⟨⟨j, c, hb, hmade, hkept⟩, hne⟩
    refine ⟨j, c, hb, List.mem_cons_of_mem _ hmade, fun h => ?_⟩
    rcases List.mem_cons.mp h with hnew | hold
    · cases hnew
      exact hne rfl
    · exact hkept hold

theorem made_fresh (i : Nat) (cell : Cell) : (i, .made cell s.fresh) ∉ log :=
  fun h => Nat.lt_irrefl _ (hs.fresh i cell _ h)

/-- Nothing happened to the next number. -/
theorem not_spent_fresh : ¬ Spent log s.fresh := by
  rintro ⟨j, cell, h | h⟩
  · exact hs.made_fresh j cell (hs.published j cell _ h)
  · exact hs.made_fresh j cell (hs.released j cell _ h)

/-- Only counters changed. -/
theorem of_eq (hentry : s'.entry = s.entry) (hfresh : s'.fresh = s.fresh)
    (hlive : ∀ b, (s'.stock b).live = (s.stock b).live) : Sound shape log s' where
  nodup := hs.nodup
  maker := hs.maker
  fresh := hfresh ▸ hs.fresh
  entry := hentry ▸ hs.entry
  published := hs.published
  released := hs.released
  apart := hs.apart
  nodup_live b := hlive b ▸ hs.nodup_live b
  live b := hlive b ▸ hs.live b
  within cell r he := (hs.within cell r (hentry ▸ he)).mono fun _ _ h => hentry ▸ h

/-- A thread makes a resource that never was. -/
theorem of_make (i : Nat) (cell : Cell) :
    Sound shape ((i, .made cell s.fresh) :: log) (s.make cell) where
  nodup := List.nodup_cons.mpr ⟨hs.made_fresh i cell, hs.nodup⟩
  maker j k c c' r hj hk := by
    rcases List.mem_cons.mp hj with hj | hj <;> rcases List.mem_cons.mp hk with hk | hk
    · cases hj
      cases hk
      exact ⟨rfl, rfl⟩
    · cases hj
      exact absurd hk (hs.made_fresh k c')
    · cases hk
      exact absurd hj (hs.made_fresh j c)
    · exact hs.maker j k c c' r hj hk
  fresh j c r hj := by
    rcases List.mem_cons.mp hj with hj | hj
    · cases hj
      exact Nat.lt_succ_self _
    · exact Nat.lt_succ_of_lt (hs.fresh j c r hj)
  entry c r := by
    rw [entry_make]
    simpa using hs.entry c r
  published j c r hj :=
    List.mem_cons_of_mem _ (hs.published j c r ((List.mem_cons.mp hj).resolve_left nofun))
  released j c r hj :=
    List.mem_cons_of_mem _ (hs.released j c r ((List.mem_cons.mp hj).resolve_left nofun))
  apart j k c c' r hj hk :=
    hs.apart j k c c' r ((List.mem_cons.mp hj).resolve_left nofun)
      ((List.mem_cons.mp hk).resolve_left nofun)
  nodup_live b := by
    rw [stock_make, stock_change]
    split
    · refine List.nodup_cons.mpr ⟨fun h => ?_, hs.nodup_live b⟩
      obtain ⟨j, c, -, hmade, -⟩ := (hs.live b _).mp h
      exact hs.made_fresh j c hmade
    · exact hs.nodup_live b
  live b r := by
    rw [live_cons_made hs.not_spent_fresh, ← hs.live, stock_make, stock_change]
    by_cases hb : b = cell.isPage
    · simp [hb]
    · simp [hb, Ne.symm hb]
  within c r he := by
    have hentry := entry_make s cell
    exact (hs.within c r (hentry ▸ he)).mono fun _ _ h => hentry ▸ h

/-- A thread publishes a resource of its own in a cell that has none. -/
theorem of_publish {cell : Cell} {own : Nat} (hown : Owns i log cell own)
    (hnone : s.entry cell = none) (hwithin : cell.Within shape s) :
    Sound shape ((i, .published cell own) :: log) (s.publish cell own) := by
  have hkept : ∀ c r, s.entry c = some r → (s.publish cell own).entry c = some r :=
    fun _ _ => entry_publish_mono hnone
  constructor
  case nodup =>
    refine List.nodup_cons.mpr ⟨fun h => ?_, hs.nodup⟩
    exact hown.2 ⟨i, cell, .inl h⟩
  -- only the entry and the publication are new; the other facts are those of the log before
  case maker =>
    exact fun j k c c' r hj hk => hs.maker j k c c' r ((List.mem_cons.mp hj).resolve_left nofun)
      ((List.mem_cons.mp hk).resolve_left nofun)
  case fresh => exact fun j c r hj => hs.fresh j c r ((List.mem_cons.mp hj).resolve_left nofun)
  case entry =>
    intro c r
    constructor
    · intro he
      by_cases hc : c = cell
      · subst hc
        rw [entry_publish_self] at he
        cases he
        exact ⟨i, List.mem_cons_self⟩
      · rw [entry_publish_of_ne hc] at he
        exact ((hs.entry c r).mp he).imp fun _ => List.mem_cons_of_mem _
    · rintro ⟨j, hj⟩
      rcases List.mem_cons.mp hj with hj | hj
      · cases hj
        exact entry_publish_self s cell own
      · exact hkept c r ((hs.entry c r).mpr ⟨j, hj⟩)
  case published =>
    intro j c r hj
    rcases List.mem_cons.mp hj with hj | hj
    · cases hj
      exact List.mem_cons_of_mem _ hown.1
    · exact List.mem_cons_of_mem _ (hs.published j c r hj)
  case released =>
    exact fun j c r hj =>
      List.mem_cons_of_mem _ (hs.released j c r ((List.mem_cons.mp hj).resolve_left nofun))
  case apart =>
    intro j k c c' r hj hk
    have hk := (List.mem_cons.mp hk).resolve_left nofun
    rcases List.mem_cons.mp hj with hj | hj
    · cases hj
      exact hown.2 ⟨k, c', .inr hk⟩
    · exact hs.apart j k c c' r hj hk
  case nodup_live => exact fun b => stock_publish s cell own b ▸ hs.nodup_live b
  case live =>
    intro b r
    rw [live_cons_published, stock_publish, hs.live]
  -- no entry is lost, so what was within the directory still is
  case within =>
    intro c r he
    by_cases hc : c = cell
    · subst hc
      exact hwithin.mono hkept
    · rw [entry_publish_of_ne hc] at he
      exact (hs.within c r he).mono hkept

/-- A thread releases a resource of its own. -/
theorem of_release {cell : Cell} {own : Nat} (hown : Owns i log cell own) :
    Sound shape ((i, .released cell own) :: log) (s.release cell own) := by
  have hentry := entry_release s cell own
  constructor
  case nodup =>
    refine List.nodup_cons.mpr ⟨fun h => ?_, hs.nodup⟩
    exact hown.2 ⟨i, cell, .inr h⟩
  case maker =>
    exact fun j k c c' r hj hk => hs.maker j k c c' r ((List.mem_cons.mp hj).resolve_left nofun)
      ((List.mem_cons.mp hk).resolve_left nofun)
  case fresh =>
    intro j c r hj
    rw [show (s.release cell own).fresh = s.fresh from fresh_change ..]
    exact hs.fresh j c r ((List.mem_cons.mp hj).resolve_left nofun)
  case entry =>
    intro c r
    rw [hentry]
    simpa using hs.entry c r
  case published =>
    exact fun j c r hj =>
      List.mem_cons_of_mem _ (hs.published j c r ((List.mem_cons.mp hj).resolve_left nofun))
  case released =>
    intro j c r hj
    rcases List.mem_cons.mp hj with hj | hj
    · cases hj
      exact List.mem_cons_of_mem _ hown.1
    · exact List.mem_cons_of_mem _ (hs.released j c r hj)
  case apart =>
    intro j k c c' r hj hk
    have hj := (List.mem_cons.mp hj).resolve_left nofun
    rcases List.mem_cons.mp hk with hk | hk
    · cases hk
      exact hown.2 ⟨j, c, .inl hj⟩
    · exact hs.apart j k c c' r hj hk
  case nodup_live =>
    intro b
    rw [Shared.release, stock_change]
    split
    · exact (hs.nodup_live b).erase own
    · exact hs.nodup_live b
  case live =>
    intro b r
    rw [hs.live_cons_released hown.1, Shared.release, stock_change]
    by_cases hb : b = cell.isPage
    · rw [if_pos hb, (hs.nodup_live b).mem_erase_iff, hs.live, and_comm]
    · rw [if_neg hb, hs.live]
      refine ⟨fun h => ⟨h, ?_⟩, And.left⟩
      -- one resource cannot be of both kinds: it was made once
      rintro rfl
      obtain ⟨j, c, hc, hmade, -⟩ := h
      obtain ⟨-, rfl⟩ := hs.maker j i c cell r hmade hown.1
      exact hb hc.symm
  case within => exact fun c r he => (hs.within c r (hentry ▸ he)).mono fun _ _ h => hentry ▸ h

end Sound

/-! ### A step keeps it all -/

/-- A resource is spent by being published or released. -/
theorem spent_of_cons {d : Deed} {r : Nat} (h : Spent ((i, d) :: log) r) :
    (∃ cell, d = .published cell r ∨ d = .released cell r) ∨ Spent log r := by
  obtain ⟨j, cell, h | h⟩ := h
  · rcases List.mem_cons.mp h with hnew | hold
    · cases hnew
      exact .inl ⟨cell, .inl rfl⟩
    · exact .inr ⟨j, cell, .inl hold⟩
  · rcases List.mem_cons.mp h with hnew | hold
    · cases hnew
      exact .inl ⟨cell, .inr rfl⟩
    · exact .inr ⟨j, cell, .inr hold⟩

namespace Respects

theorem of_eq (hentry : s'.entry = s.entry) : Respects i log s log s' where
  logged _ _ h := h
  own _ _ h _ := h
  entry _ _ h := hentry ▸ h
  owns _ _ _ _ h := h

/-- A deed with a resource that no other thread has. -/
theorem of_cons {d : Deed} (hentry : ∀ cell r, s.entry cell = some r → s'.entry cell = some r)
    (hd : ∀ j cell r, j ≠ i → Owns j log cell r →
      ∀ cell', d ≠ .published cell' r ∧ d ≠ .released cell' r) :
    Respects i log s ((i, d) :: log) s' where
  logged _ _ h := List.mem_cons_of_mem _ h
  own j e h hj := by
    rcases List.mem_cons.mp h with hnew | hold
    · cases hnew
      exact absurd rfl hj
    · exact hold
  entry := hentry
  owns j cell r hj hown := by
    refine ⟨List.mem_cons_of_mem _ hown.1, fun hspent => ?_⟩
    rcases spent_of_cons hspent with ⟨cell', hp | hr⟩ | hold
    · exact (hd j cell r hj hown cell').1 hp
    · exact (hd j cell r hj hown cell').2 hr
    · exact hown.2 hold

end Respects

namespace Moved

/-- A step loses no call of its thread. -/
theorem calls_eq (h : Moved shape s t deed s' t') : t'.calls = t.calls := by
  have gained {request : Request} {cell : Cell} {phase : Phase} {resource : Nat}
      (hc : t.current = some (request, cell, phase)) :
      (t.gain shape request cell resource).calls = t.calls := by
    rcases gain_cases shape t request cell resource with ⟨_, -, hg⟩ | ⟨-, hg⟩
    · rw [hg, Caller.calls_turn hc]
    · rw [hg, Caller.calls_finish hc]
  cases h with
  | beyond hc ht | unbacked hc ht => simp [Caller.calls, Caller.finish, hc, ht]
  | arrive hc ht => simp [Caller.calls, Caller.turn, hc, ht]
  | found hc | countPublished hc | countReleased hc => exact gained hc
  | countFailed hc => exact Caller.calls_finish hc _
  | empty hc | refuse hc | make hc | publish hc | lose hc | release hc =>
      exact Caller.calls_turn hc _

variable (h : Moved shape s t deed s' t') (hs : Sound shape log s)
  (hf : Fits shape programs i log s t)
include h hs hf

/-- What the other threads rely on stays. -/
theorem respects : Respects i log s (under i deed ++ log) s' := by
  -- a resource of this thread is no other thread's
  have mine {cell : Cell} {own : Nat} (hown : Owns i log cell own) {j : Nat} {c : Cell} {r : Nat}
      (hj : j ≠ i) (hother : Owns j log c r) : r ≠ own := by
    rintro rfl
    exact hj (hs.maker j i c cell r hother.1 hown.1).1
  cases h with
  | make hc =>
      exact .of_cons (fun c r he => entry_make s _ ▸ he) fun _ _ _ _ _ _ => ⟨nofun, nofun⟩
  | @publish request cell own hc hnone =>
      obtain ⟨-, -, hown⟩ := hf.current _ _ _ hc
      refine .of_cons (fun _ _ => entry_publish_mono hnone) fun j c r hj hother cell' =>
        ⟨fun hd => ?_, nofun⟩
      cases hd
      exact mine hown hj hother rfl
  | @release request cell own winner hc =>
      obtain ⟨-, -, hown, -⟩ := hf.current _ _ _ hc
      refine .of_cons (fun c r he => entry_release s cell own ▸ he) fun j c r hj hother cell' =>
        ⟨nofun, fun hd => ?_⟩
      cases hd
      exact mine hown hj hother rfl
  | beyond | arrive | found | empty | refuse | lose => exact .of_eq rfl
  | unbacked | countPublished | countReleased | countFailed => exact .of_eq (entry_change ..)

/-- A step keeps entries and stocks true to the log. -/
theorem sound : Sound shape (under i deed ++ log) s' := by
  have counted {b : Bool} {f : Stock → Stock} (hlive : ∀ k, (f k).live = k.live) :
      Sound shape log (s.change b f) := by
    refine hs.of_eq (entry_change ..) (fresh_change ..) fun c => ?_
    rw [stock_change]
    split
    · exact hlive _
    · rfl
  cases h with
  | make hc => exact hs.of_make i _
  | publish hc hnone =>
      obtain ⟨-, hwithin, hown⟩ := hf.current _ _ _ hc
      exact hs.of_publish hown hnone hwithin
  | release hc =>
      obtain ⟨-, -, hown, -⟩ := hf.current _ _ _ hc
      exact hs.of_release hown
  | beyond | arrive | found | empty | refuse | lose => exact hs
  | unbacked | countPublished | countReleased | countFailed => exact counted fun _ => rfl

omit hs in
/-- What came of the resources that the thread made. -/
theorem fate (cell : Cell) (r : Nat)
    (hmade : (i, .made cell r) ∈ under i deed ++ log) :
    (i, .published cell r) ∈ under i deed ++ log ∨
      (i, .released cell r) ∈ under i deed ++ log ∨ t'.Holds cell r := by
  rcases List.mem_append.mp hmade with hnew | hold
  · cases h with
    | make hc =>
        cases List.mem_singleton.mp hnew
        exact .inr (.inr ⟨_, .inl rfl⟩)
    | publish | release => cases List.mem_singleton.mp hnew
    | _ => cases hnew
  · rcases hf.fate cell r hold with hp | hr | ⟨request, hheld | ⟨winner, hheld⟩⟩
    · exact .inl (List.mem_append_right _ hp)
    · exact .inr (.inl (List.mem_append_right _ hr))
    -- a resource still held leaves its thread by its publication, or by its release
    · cases h with
      | publish hc =>
          cases hc.symm.trans hheld
          exact .inl List.mem_cons_self
      | lose hc =>
          cases hc.symm.trans hheld
          exact .inr (.inr ⟨_, .inr ⟨_, rfl⟩⟩)
      | beyond hc | unbacked hc | arrive hc | found hc | empty hc | refuse hc | make hc
      | countPublished hc | release hc | countReleased hc | countFailed hc =>
          cases hc.symm.trans hheld
    · cases h with
      | release hc =>
          cases hc.symm.trans hheld
          exact .inr (.inl List.mem_cons_self)
      | beyond hc | unbacked hc | arrive hc | found hc | empty hc | refuse hc | make hc
      | publish hc | lose hc | countPublished hc | countReleased hc | countFailed hc =>
          cases hc.symm.trans hheld

/-- What a call is at after the step. -/
theorem current (request : Request) (cell : Cell) (phase : Phase)
    (hc : t'.current = some (request, cell, phase)) :
    request.At shape cell ∧ cell.Within shape s' ∧
      phase.Fits i (under i deed ++ log) s' cell := by
  have hr := h.respects hs hf
  -- a call that gains a resource goes on to the page in the chunk, or ends
  have gained {request' : Request} {cell' : Cell} {phase' : Phase} {resource : Nat}
      (hc' : t.current = some (request', cell', phase')) (he : s'.entry cell' = some resource)
      (hg : (t.gain shape request' cell' resource).current = some (request, cell, phase)) :
      request.At shape cell ∧ cell.Within shape s' ∧
        phase.Fits i (under i deed ++ log) s' cell := by
    obtain ⟨hat, -, -⟩ := hf.current _ _ _ hc'
    rcases gain_cases shape t request' cell' resource with ⟨next, hn, hgain⟩ | ⟨-, hgain⟩
    · rw [hgain] at hg
      cases hg
      obtain ⟨hnext, hwithin⟩ := hat.next hn he
      exact ⟨hnext, hwithin, trivial⟩
    · rw [hgain] at hg
      cases hg
  -- a call that goes on to another phase stays at its cell
  have turned {request' : Request} {cell' : Cell} {phase' : Phase}
      (hc' : t.current = some (request', cell', phase')) :
      request'.At shape cell' ∧ cell'.Within shape s' := by
    obtain ⟨hat, hwithin, -⟩ := hf.current _ _ _ hc'
    exact ⟨hat, hwithin.mono hr.entry⟩
  cases h with
  | beyond | unbacked | countFailed => cases hc
  | arrive _ _ hfirst =>
      cases hc
      obtain ⟨hlt, rfl⟩ := first?_eq_some_iff.mp hfirst
      exact ⟨.inl hfirst, hlt, trivial⟩
  | found hc' he => exact gained hc' he hc
  | empty hc' | refuse hc' =>
      cases hc
      exact ⟨(turned hc').1, (turned hc').2, trivial⟩
  | make hc' =>
      cases hc
      refine ⟨(turned hc').1, (turned hc').2, List.mem_cons_self, fun hspent => ?_⟩
      rcases spent_of_cons hspent with ⟨_, hd | hd⟩ | hold
      · cases hd
      · cases hd
      · exact hs.not_spent_fresh hold
  | publish hc' =>
      cases hc
      exact ⟨(turned hc').1, (turned hc').2, entry_publish_self ..⟩
  | lose hc' he =>
      cases hc
      obtain ⟨hat, hwithin, hown⟩ := hf.current _ _ _ hc'
      exact ⟨hat, hwithin, hown, he⟩
  | countPublished hc' =>
      obtain ⟨-, -, he⟩ := hf.current _ _ _ hc'
      exact gained hc' (hr.entry _ _ he) hc
  | release hc' =>
      cases hc
      obtain ⟨-, -, -, he⟩ := hf.current _ _ _ hc'
      exact ⟨(turned hc').1, (turned hc').2, hr.entry _ _ he⟩
  | countReleased hc' =>
      obtain ⟨-, -, he⟩ := hf.current _ _ _ hc'
      exact gained hc' (hr.entry _ _ he) hc

/-- Where the addresses come from that calls got. -/
theorem ended (request : Request) (address : Address)
    (he : (request, some address) ∈ t'.ended) :
    s'.entry (request.target shape) = some address.resource ∧
      address.offset = request.offset shape := by
  have hr := h.respects hs hf
  have old (hold : (request, some address) ∈ t.ended) :
      s'.entry (request.target shape) = some address.resource ∧
        address.offset = request.offset shape :=
    (hf.ended request address hold).imp_left (hr.entry _ _)
  -- a call that ends now is at its target, and gets what the entry holds
  have gained {request' : Request} {cell : Cell} {phase : Phase} {resource : Nat}
      (hc : t.current = some (request', cell, phase)) (hentry : s'.entry cell = some resource)
      (hg : (request, some address) ∈ (t.gain shape request' cell resource).ended) :
      s'.entry (request.target shape) = some address.resource ∧
        address.offset = request.offset shape := by
    rcases gain_cases shape t request' cell resource with ⟨next, -, hgain⟩ | ⟨hn, hgain⟩
    · rw [hgain] at hg
      exact old hg
    · rw [hgain] at hg
      rcases List.mem_cons.mp hg with hnew | hold
      · cases hnew
        obtain ⟨hat, -, -⟩ := hf.current _ _ _ hc
        exact ⟨hat.eq_target hn ▸ hentry, rfl⟩
      · exact old hold
  cases h with
  | beyond | unbacked | countFailed => exact old ((List.mem_cons.mp he).resolve_left nofun)
  | found hc hentry => exact gained hc hentry he
  | countPublished hc =>
      obtain ⟨-, -, hentry⟩ := hf.current _ _ _ hc
      exact gained hc (hr.entry _ _ hentry) he
  | countReleased hc =>
      obtain ⟨-, -, hentry⟩ := hf.current _ _ _ hc
      exact gained hc (hr.entry _ _ hentry) he
  | arrive | empty | refuse | make | publish | lose | release => exact old he

/-- A step leaves its own thread true to the log. -/
theorem fits : Fits shape programs i (under i deed ++ log) s' t' where
  calls := h.calls_eq ▸ hf.calls
  current := h.current hs hf
  fate := h.fate hf
  ended := h.ended hs hf

end Moved

/-- A thread's calls fit after the step of another thread. -/
theorem Fits.of_respects {j : Nat} (hr : Respects i log s log' s') (hj : j ≠ i)
    (hf : Fits shape programs j log s t) : Fits shape programs j log' s' t where
  calls := hf.calls
  current request cell phase hc := by
    obtain ⟨hat, hwithin, hphase⟩ := hf.current request cell phase hc
    refine ⟨hat, hwithin.mono hr.entry, ?_⟩
    cases phase with
    | publish own => exact hr.owns j cell own hj hphase
    | countPublished own => exact hr.entry _ _ hphase
    | release own winner => exact ⟨hr.owns j cell own hj hphase.1, hr.entry _ _ hphase.2⟩
    | countReleased winner => exact hr.entry _ _ hphase
    | load | make | countFailed => trivial
  fate cell r hmade := by
    rcases hf.fate cell r (hr.own j _ hmade hj) with hp | hreleased | hheld
    · exact .inl (hr.logged _ _ hp)
    · exact .inr (.inl (hr.logged _ _ hreleased))
    · exact .inr (.inr hheld)
  ended request address he := (hf.ended request address he).imp_left (hr.entry _ _)

/-- **Every step keeps cells and resources sound and the calls of all threads fit.** -/
theorem kept (shape : Shape) (programs : List (List Request)) :
    Kept (step shape) deed? (Sound shape) (Fits shape programs) where
  own hs hf h :=
    have hm := moved_of_step h
    ⟨hm.sound hs hf, hm.fits hs hf⟩
  other hs hf h hj hu := hu.of_respects ((moved_of_step h).respects hs hf) hj

end SharedSync.FirstTouch
