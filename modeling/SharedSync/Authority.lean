import SharedSync.Event
import SharedSync.Wire.Messages

/-!
# Authority — the two requests

What any authority is, ways to make one from others, and one with prepared answers.
-/

namespace SharedSync

/-! ### Authorities

The authority issues handles and slots and resolves names.  All that a process knows of it are
two operations on its state: `create` and `query`.  A reply carries the authority's own verdict;
an error means that there is no verdict. -/

/-- The two operations, on an authority whose state is a `σ`. -/
structure Authority (σ : Type) where
  create : CreateRequest → σ → Outcome σ (Except SyncError Reply)
  query : Handle → σ → Outcome σ (Except SyncError Reply)

/-- A request to an authority. -/
inductive Request where
  | create (request : CreateRequest)
  | query (handle : Handle)
deriving DecidableEq

/-- Either operation, by the request. -/
def Authority.answer (a : Authority σ) (request : Request) (s : σ) :
    Outcome σ (Except SyncError Reply) :=
  match request with
  | .create request => a.create request s
  | .query handle => a.query handle s

namespace Outcome

/-- The same outcome on a state that holds the one before. -/
def inside (o : Outcome σ α) (hold : σ → τ) : Outcome τ α := ⟨o.result, hold o.state, o.events⟩

end Outcome

namespace Authority

/-- One of two authorities, whichever the state belongs to. -/
def either (a : Authority σ) (b : Authority τ) : Authority (σ ⊕ τ) where
  create request
    | .inl s => (a.create request s).inside .inl
    | .inr t => (b.create request t).inside .inr
  query handle
    | .inl s => (a.query handle s).inside .inl
    | .inr t => (b.query handle t).inside .inr

/-- The same authority, which keeps a list of all that it was asked for. -/
def recorded {σ : Type} (a : Authority σ) : Authority (σ × List Request) where
  create request s := (a.create request s.1).inside fun s' => (s', s.2 ++ [.create request])
  query handle s := (a.query handle s.1).inside fun s' => (s', s.2 ++ [.query handle])

end Authority

/-! ### From a script

An authority that gives prepared answers, one per request in order, and keeps the requests it
was sent.  Behind the last answer every request fails. -/

/-- An authority whose answers were written beforehand. -/
structure Script where
  answers : List (Except SyncError Reply)
  /-- The requests so far, the last one first. -/
  sent : List Request := []

namespace Script

/-- The error of every request behind the last answer. -/
def exhausted : SyncError := .protocol (.described "script exhausted")

/-- The next answer, whatever the request is. -/
def take (request : Request) (s : Script) : Outcome Script (Except SyncError Reply) :=
  match s.answers with
  | [] => ⟨.error exhausted, { s with sent := request :: s.sent }, []⟩
  | answer :: answers => ⟨answer, { answers, sent := request :: s.sent }, []⟩

/-- Both operations take the next answer. -/
def authority : Authority Script where
  create request := take (.create request)
  query handle := take (.query handle)

end Script

end SharedSync
