import Mathlib
import SharedSync.Context

/-!
# Context — openings under one gate

Contexts that are opened one after the other share a gate.  Whatever they are given (`Opening`),
and whatever the kernel, the authorities and the systems answer, all of them go by the decision of
the first.  Each opening has a system of its own, so files may come and go between two openings,
and also between two questions of one opening.

* `verdict_run`: what an opening comes to (`Verdict`), by the decision in force, the authority's
  answer and the system's.
* `opened_under_first`: so every opening of a sequence is `Opened` under the first one's decision,
  and the kernel is asked once at most.
-/

namespace SharedSync

/-- What one opening of a context is given, what the system answers to it, and what the kernel says
if it is asked. -/
structure Opening where
  {σ : Type}
  authority : Authority σ
  state : σ
  system : System
  config : Config
  answer : Futex.Answer

namespace Opening

/-- The opening under a gate. -/
def run (o : Opening) (gate : Gate) : Outcome (Gate × o.σ) (Except SyncError Context) :=
  Context.start o.authority o.system o.config o.answer gate o.state

/-- The decision of a gate that has none yet. -/
def decides (o : Opening) : GateDecision :=
  ⟨o.config.enabled, if o.config.enabled then some (Futex.isSupported o.answer) else none⟩

/-- What the authority says when it is asked whether it takes part. -/
def reply (o : Opening) : Except SyncError Reply :=
  (o.authority.create .supportQuery o.state).result

/-- The authority answers, and not that it takes no part. -/
def TakesPart (o : Opening) : Prop :=
  ∃ reply, o.reply = .ok reply ∧ reply.status ≠ .notImplemented

/-- The authority answers that it takes no part. -/
def Declines (o : Opening) : Prop :=
  ∃ reply, o.reply = .ok reply ∧ reply.status = .notImplemented

/-- The backing file for an inode of the configuration directory. -/
def path (o : Opening) (inode : Nat) : Path :=
  o.config.shmDir.join (Config.backingPrefix ++ "-" ++ Text.hex inode)

/-- What a context keeps that opened the file on pages of that size. -/
def runtime (o : Opening) (inode : Nat) (file : OpenFile) (size : PageSize) : Runtime where
  pool := (Pool.ofFile file (o.path inode) size).result
  cache := .standard

/-- The results of openings one after the other. -/
def results (gate : Gate) : List Opening → List (Except SyncError Context)
  | [] => []
  | o :: rest => (o.run gate).result :: results (o.run gate).state.1 rest

/-- The gate behind them. -/
def gateAfter (gate : Gate) (openings : List Opening) : Gate :=
  openings.foldl (fun gate o => (o.run gate).state.1) gate

/-- The kernel is asked. -/
def isCheck : Event → Bool
  | .waitingOnSeveral .. => true
  | _ => false

/-- How often their gate asks the kernel. -/
def checks (gate : Gate) : List Opening → Nat
  | [] => 0
  | o :: rest =>
      (gate.decideByProbe o.config.enabled o.answer).events.countP isCheck +
        checks (o.run gate).state.1 rest

/-! ### One opening -/

/-- What an opening comes to under a decision. -/
inductive Verdict (d : GateDecision) (o : Opening) : Except SyncError Context → Prop where
  | refused {error : SyncError} (hr : o.reply = .error error) : Verdict d o (.error error)
  | authorityOnly (hr : o.TakesPart) (hd : d.enabled = false) :
      Verdict d o (.error (.configMismatch (.authorityOnly d)))
  | processOnly (hr : o.Declines) (hd : d.enabled = true) :
      Verdict d o (.error (.configMismatch .processOnly))
  | disabled (hr : o.Declines) (hd : d.enabled = false) :
      Verdict d o (.ok { config := o.config, decision := d, runtime := none })
  | unnamed {error : SystemError} (hr : o.TakesPart) (hd : d.enabled = true)
      (hi : o.system.inode o.config.configDir = .error error) :
      Verdict d o (.error (.system error))
  | missing {inode : Nat} {error : SystemError} (hr : o.TakesPart) (hd : d.enabled = true)
      (hi : o.system.inode o.config.configDir = .ok inode)
      (hf : o.system.openExisting (o.path inode) = .error error) (hk : error.kind = .notFound) :
      Verdict d o (.error (.backingFileMissing (o.path inode)))
  | unopened {inode : Nat} {error : SystemError} (hr : o.TakesPart) (hd : d.enabled = true)
      (hi : o.system.inode o.config.configDir = .ok inode)
      (hf : o.system.openExisting (o.path inode) = .error error) (hk : error.kind ≠ .notFound) :
      Verdict d o (.error (.system error))
  | unpaged {inode : Nat} {file : OpenFile} {error : SystemError} (hr : o.TakesPart)
      (hd : d.enabled = true) (hi : o.system.inode o.config.configDir = .ok inode)
      (hf : o.system.openExisting (o.path inode) = .ok file)
      (hp : o.system.pageSize? = .error error) : Verdict d o (.error (.system error))
  | enabled {inode : Nat} {file : OpenFile} {size : PageSize} (hr : o.TakesPart)
      (hd : d.enabled = true) (hi : o.system.inode o.config.configDir = .ok inode)
      (hf : o.system.openExisting (o.path inode) = .ok file)
      (hp : o.system.pageSize? = .ok size) :
      Verdict d o
        (.ok { config := o.config, decision := d, runtime := some (o.runtime inode file size) })

variable {o : Opening} {d : GateDecision} {gate : Gate} {outcome : Except SyncError Context}

/-- The path is made from the inode alone. -/
theorem backingPath_eq (o : Opening) :
    o.config.backingPath o.system = (o.system.inode o.config.configDir).map o.path := by
  unfold Config.backingPath Config.backingName
  cases o.system.inode o.config.configDir <;> rfl

/-- Both sides take part: the system decides. -/
theorem verdict_enabled (hr : o.TakesPart) (hd : d.enabled = true) :
    Verdict d o (Context.openUnder o.system o.config d true).result := by
  have hpath := backingPath_eq o
  cases hi : o.system.inode o.config.configDir with
  | error error =>
      rw [hi] at hpath
      simpa [Context.openUnder, hd, hpath, Except.map] using .unnamed hr hd hi
  | ok inode =>
      rw [hi] at hpath
      cases hf : o.system.openExisting (o.path inode) with
      | error error =>
          by_cases hk : error.kind = .notFound
          · simpa [Context.openUnder, Pool.openAt, Pool.openFile, hd, hpath, Except.map, hf, hk]
              using .missing hr hd hi hf hk
          · simpa [Context.openUnder, Pool.openAt, Pool.openFile, hd, hpath, Except.map, hf, hk]
              using .unopened hr hd hi hf hk
      | ok file =>
          -- the file is open before the machine is asked for its pages
          cases hp : o.system.pageSize? with
          | error error =>
              simpa [Context.openUnder, Pool.openAt, Pool.openFile, hd, hpath, Except.map, hf, hp]
                using .unpaged hr hd hi hf hp
          | ok size =>
              simpa [Context.openUnder, Pool.openAt, Pool.openFile, hd, hpath, Except.map, hf, hp]
                using .enabled hr hd hi hf hp

/-- **An opening comes to one of these.** -/
theorem verdict_run (o : Opening) (gate : Gate) :
    Verdict (gate.decideByProbe o.config.enabled o.answer).result o (o.run gate).result := by
  generalize hdecided : gate.decideByProbe o.config.enabled o.answer = decided
  cases hr : o.reply with
  | error error =>
      have hrun : (o.run gate).result = .error error := by
        rw [reply] at hr
        simp only [run, Context.start, hr]
      exact hrun ▸ .refused hr
  | ok reply =>
      have hrun : (o.run gate).result = (Context.openUnder o.system o.config decided.result
          (reply.status ≠ .notImplemented)).result := by
        rw [Opening.reply] at hr
        simp only [run, Context.start, hr, hdecided]
      rw [hrun]
      by_cases hs : reply.status = .notImplemented
      · have hdeclines : o.Declines := ⟨reply, hr, hs⟩
        cases hd : decided.result.enabled with
        | false => simpa [Context.openUnder, hd, hs] using .disabled hdeclines hd
        | true => simpa [Context.openUnder, hd, hs] using .processOnly hdeclines hd
      · have htakes : o.TakesPart := ⟨reply, hr, hs⟩
        cases hd : decided.result.enabled with
        | false => simpa [Context.openUnder, hd, hs] using .authorityOnly htakes hd
        | true => simpa [hs] using verdict_enabled htakes hd

/-- The conditions exclude each other. -/
theorem Verdict.unique {outcome' : Except SyncError Context} (h : Verdict d o outcome)
    (h' : Verdict d o outcome') : outcome = outcome' := by
  cases h <;> cases h' <;> grind [TakesPart, Declines]

/-- So to ask what an opening comes to is to ask for a verdict. -/
theorem Verdict.eq_iff {outcome' : Except SyncError Context} (h : Verdict d o outcome) :
    outcome = outcome' ↔ Verdict d o outcome' :=
  ⟨fun he => he ▸ h, h.unique⟩

/-! ### The conditions of each verdict

An error may be any error of the query, so the conditions of the others are those where the query
was answered. -/

/-- A context has the decision in force, whatever its own configuration requests. -/
theorem Verdict.context {c : Context} (h : Verdict d o (.ok c)) :
    c.decision = d ∧ c.config = o.config := by
  cases h <;> exact ⟨rfl, rfl⟩

theorem verdict_enabled_iff : (∃ c, Verdict d o (.ok c) ∧ c.isEnabled = true) ↔
    d.enabled = true ∧ o.TakesPart ∧ ∃ inode file size,
      o.system.inode o.config.configDir = .ok inode ∧
        o.system.openExisting (o.path inode) = .ok file ∧ o.system.pageSize? = .ok size := by
  constructor
  · rintro ⟨c, h, he⟩
    cases h with
    | disabled => cases he
    | enabled hr hd hi hf hp => exact ⟨hd, hr, _, _, _, hi, hf, hp⟩
  · rintro ⟨hd, hr, inode, file, size, hi, hf, hp⟩
    exact ⟨_, .enabled hr hd hi hf hp, rfl⟩

theorem verdict_disabled_iff : (∃ c, Verdict d o (.ok c) ∧ c.isEnabled = false) ↔
    d.enabled = false ∧ o.Declines := by
  constructor
  · rintro ⟨c, h, he⟩
    cases h with
    | disabled hr hd => exact ⟨hd, hr⟩
    | enabled => cases he
  · rintro ⟨hd, hr⟩
    exact ⟨_, .disabled hr hd, rfl⟩

section Answered

variable {reply : Reply} {error : SyncError} (hr : o.reply = .ok reply)

include hr

/-- An error behind an answer is of one of three kinds. -/
theorem Verdict.error_cases (h : Verdict d o (.error error)) :
    (∃ cause, error = .configMismatch cause) ∨ (∃ path, error = .backingFileMissing path) ∨
      ∃ failure, error = .system failure := by
  cases h with
  | refused he => cases hr.symm.trans he
  | authorityOnly | processOnly => exact .inl ⟨_, rfl⟩
  | missing => exact .inr (.inl ⟨_, rfl⟩)
  | unnamed | unopened | unpaged => exact .inr (.inr ⟨_, rfl⟩)

/-- The first two kinds are fatal, the last is not. -/
theorem Verdict.isFatal_iff (h : Verdict d o (.error error)) : error.isFatal = true ↔
    (∃ cause, error = .configMismatch cause) ∨ ∃ path, error = .backingFileMissing path := by
  obtain ⟨_, rfl⟩ | ⟨_, rfl⟩ | ⟨_, rfl⟩ := h.error_cases hr <;> simp [SyncError.isFatal]

/-- Gate and authority disagree if the one is on where the other declines. -/
theorem verdict_mismatch_iff : (∃ cause, Verdict d o (.error (.configMismatch cause))) ↔
    (d.enabled = true ↔ reply.status = .notImplemented) := by
  constructor
  · rintro ⟨cause, h⟩
    cases h with
    | refused he => cases hr.symm.trans he
    | authorityOnly ht hd =>
        obtain ⟨reply', hr', hs⟩ := ht
        cases hr.symm.trans hr'
        simp [hd, hs]
    | processOnly ht hd =>
        obtain ⟨reply', hr', hs⟩ := ht
        cases hr.symm.trans hr'
        simp [hd, hs]
  · intro hdisagree
    cases hd : d.enabled with
    | false =>
        rw [hd] at hdisagree
        exact ⟨_, .authorityOnly ⟨reply, hr, fun hs => nomatch hdisagree.mpr hs⟩ hd⟩
    | true => exact ⟨_, .processOnly ⟨reply, hr, hdisagree.mp hd⟩ hd⟩

theorem verdict_missing_iff {path : Path} : Verdict d o (.error (.backingFileMissing path)) ↔
    d.enabled = true ∧ o.TakesPart ∧ ∃ inode error,
      o.system.inode o.config.configDir = .ok inode ∧ path = o.path inode ∧
        o.system.openExisting path = .error error ∧ error.kind = .notFound := by
  constructor
  · intro h
    cases h with
    | refused he => cases hr.symm.trans he
    | missing ht hd hi hf hk => exact ⟨hd, ht, _, _, hi, rfl, hf, hk⟩
  · rintro ⟨hd, ht, inode, error, hi, rfl, hf, hk⟩
    exact .missing ht hd hi hf hk

theorem verdict_system_iff {error : SystemError} : Verdict d o (.error (.system error)) ↔
    d.enabled = true ∧ o.TakesPart ∧
      (o.system.inode o.config.configDir = .error error ∨ ∃ inode,
        o.system.inode o.config.configDir = .ok inode ∧
          ((o.system.openExisting (o.path inode) = .error error ∧ error.kind ≠ .notFound) ∨
            ∃ file, o.system.openExisting (o.path inode) = .ok file ∧
              o.system.pageSize? = .error error)) := by
  constructor
  · intro h
    cases h with
    | refused he => cases hr.symm.trans he
    | unnamed ht hd hi => exact ⟨hd, ht, .inl hi⟩
    | unopened ht hd hi hf hk => exact ⟨hd, ht, .inr ⟨_, hi, .inl ⟨hf, hk⟩⟩⟩
    | unpaged ht hd hi hf hp => exact ⟨hd, ht, .inr ⟨_, hi, .inr ⟨_, hf, hp⟩⟩⟩
  · rintro ⟨hd, ht, hi | ⟨inode, hi, ⟨hf, hk⟩ | ⟨file, hf, hp⟩⟩⟩
    · exact .unnamed ht hd hi
    · exact .unopened ht hd hi hf hk
    · exact .unpaged ht hd hi hf hp

end Answered

/-- What is known of an opening under the decision `d`. -/
structure Opened (d : GateDecision) (o : Opening) (outcome : Except SyncError Context) : Prop where
  /-- A context has the decision in force, whatever its own configuration requests. -/
  context : ∀ c, outcome = .ok c → c.decision = d ∧ c.config = o.config
  enabled : (∃ c, outcome = .ok c ∧ c.isEnabled = true) ↔
    d.enabled = true ∧ o.TakesPart ∧ ∃ inode file size,
      o.system.inode o.config.configDir = .ok inode ∧
        o.system.openExisting (o.path inode) = .ok file ∧ o.system.pageSize? = .ok size
  disabled : (∃ c, outcome = .ok c ∧ c.isEnabled = false) ↔ d.enabled = false ∧ o.Declines
  /-- Without an answer, the call fails with the error of the query; -/
  refused : ∀ error, o.reply = .error error → outcome = .error error
  /-- with one, it fails in one of three ways: -/
  failed : ∀ reply, o.reply = .ok reply → ∀ error, outcome = .error error →
    (∃ cause, error = .configMismatch cause) ∨ (∃ path, error = .backingFileMissing path) ∨
      ∃ failure, error = .system failure
  /-- gate and authority disagree; -/
  mismatch : ∀ reply, o.reply = .ok reply →
    ((∃ cause, outcome = .error (.configMismatch cause)) ↔
      (d.enabled = true ↔ reply.status = .notImplemented))
  /-- both take part, and the system finds no backing file; -/
  missing : ∀ reply, o.reply = .ok reply → ∀ path,
    (outcome = .error (.backingFileMissing path) ↔
      d.enabled = true ∧ o.TakesPart ∧ ∃ inode error,
        o.system.inode o.config.configDir = .ok inode ∧ path = o.path inode ∧
          o.system.openExisting path = .error error ∧ error.kind = .notFound)
  /-- both take part, and the system fails in another way. -/
  system : ∀ reply, o.reply = .ok reply → ∀ error,
    (outcome = .error (.system error) ↔
      d.enabled = true ∧ o.TakesPart ∧
        (o.system.inode o.config.configDir = .error error ∨ ∃ inode,
          o.system.inode o.config.configDir = .ok inode ∧
            ((o.system.openExisting (o.path inode) = .error error ∧ error.kind ≠ .notFound) ∨
              ∃ file, o.system.openExisting (o.path inode) = .ok file ∧
                o.system.pageSize? = .error error)))
  /-- The first two are fatal, the last is not. -/
  fatal : ∀ reply, o.reply = .ok reply → ∀ error, outcome = .error error →
    (error.isFatal = true ↔
      (∃ cause, error = .configMismatch cause) ∨ ∃ path, error = .backingFileMissing path)

/-- What the verdicts come to, each with the condition it is reached under. -/
theorem Verdict.opened (h : Verdict d o outcome) : Opened d o outcome where
  context c hc := (h.eq_iff.mp hc).context
  enabled := by
    simp only [h.eq_iff]
    exact verdict_enabled_iff
  disabled := by
    simp only [h.eq_iff]
    exact verdict_disabled_iff
  refused error hr := h.eq_iff.mpr (.refused hr)
  failed reply hr error he := (h.eq_iff.mp he).error_cases hr
  mismatch reply hr := by
    simp only [h.eq_iff]
    exact verdict_mismatch_iff hr
  missing reply hr path := h.eq_iff.trans (verdict_missing_iff hr)
  system reply hr error := h.eq_iff.trans (verdict_system_iff hr)
  fatal reply hr error he := (h.eq_iff.mp he).isFatal_iff hr

/-! ### Openings one after the other -/

/-- A gate that has decided neither changes nor asks. -/
theorem decideByProbe_of_decided (hg : gate.decision = some d) (o : Opening) :
    gate.decideByProbe o.config.enabled o.answer = ⟨d, gate, []⟩ := by
  simp [Gate.decideByProbe, Gate.decide, Gate.asks, Outcome.after, hg]

/-- A gate that has not decided makes the decision of its first opening. -/
theorem decideByProbe_fresh (o : Opening) :
    Gate.decideByProbe {} o.config.enabled o.answer =
      ⟨o.decides, ⟨some o.decides, 1⟩,
        (if o.config.enabled then (Futex.probe o.answer).events else []) ++
          [.gateDecided o.decides]⟩ := by
  simp [Gate.decideByProbe, Gate.decide, Gate.asks, Outcome.after, decides, Futex.probe,
    Futex.emptyWait]

/-- One probe asks once. -/
theorem countP_probe (answer : Futex.Answer) :
    (Futex.probe answer).events.countP isCheck = 1 := by
  have hverdict : isCheck (Futex.verdict answer) = false := by
    unfold Futex.verdict
    split <;> rfl
  simp only [Futex.probe, Futex.emptyWait, List.countP_append, List.countP_singleton, hverdict]
  rfl

/-- Only the gate's own call changes the gate. -/
theorem state_run (o : Opening) (gate : Gate) :
    (o.run gate).state.1 = (gate.decideByProbe o.config.enabled o.answer).state := by
  simp only [run, Context.start]
  split <;> rfl

theorem opened_of_decided (hg : gate.decision = some d) (o : Opening) :
    Opened d o (o.run gate).result := by
  have hverdict := verdict_run o gate
  rw [decideByProbe_of_decided hg] at hverdict
  exact hverdict.opened

theorem state_of_decided (hg : gate.decision = some d) (o : Opening) :
    (o.run gate).state.1 = gate := by
  rw [state_run, decideByProbe_of_decided hg]

/-- A gate that has decided stays as it is, and is not asked again. -/
theorem results_of_decided (hg : gate.decision = some d) (openings : List Opening) :
    List.Forall₂ (Opened d) openings (results gate openings) ∧ gateAfter gate openings = gate ∧
      checks gate openings = 0 := by
  induction openings with
  | nil => exact ⟨.nil, rfl, rfl⟩
  | cons o rest ih =>
      obtain ⟨hall, hgate, hchecks⟩ := ih
      have hstate := state_of_decided hg o
      refine ⟨.cons (opened_of_decided hg o) (hstate.symm ▸ hall), ?_, ?_⟩
      · rw [gateAfter, List.foldl_cons, hstate]
        exact hgate
      · rw [checks, hstate, hchecks, decideByProbe_of_decided hg, List.countP_nil]

/-- **All openings go by the decision of the first.**  It is computed once, and the kernel is asked
once if the first one requests the fast path, and never if it does not. -/
theorem opened_under_first (first : Opening) (rest : List Opening) :
    List.Forall₂ (Opened first.decides) (first :: rest) (results {} (first :: rest)) ∧
      gateAfter {} (first :: rest) = ⟨some first.decides, 1⟩ ∧
      checks {} (first :: rest) = first.config.enabled.toNat := by
  have hstate : (first.run {}).state.1 = ⟨some first.decides, 1⟩ := by
    rw [state_run, decideByProbe_fresh]
  have hfirst : Opened first.decides first (first.run {}).result := by
    have hverdict := verdict_run first {}
    rw [decideByProbe_fresh] at hverdict
    exact hverdict.opened
  have hg : (⟨some first.decides, 1⟩ : Gate).decision = some first.decides := rfl
  obtain ⟨hall, hgate, hchecks⟩ := results_of_decided hg rest
  refine ⟨.cons hfirst (hstate.symm ▸ hall), ?_, ?_⟩
  · rw [gateAfter, List.foldl_cons, hstate]
    exact hgate
  · rw [checks, hstate, hchecks, decideByProbe_fresh, List.countP_append]
    cases first.config.enabled with
    | false => rfl
    | true => rw [if_pos rfl, countP_probe]; rfl

/-! ### Two systems that leave no context

Nothing exists at a path below a file, and pages of no known size cannot be mapped.  Neither is
reported as a missing backing file. -/

/-- An opening at an authority that takes part: the configuration is in `/d`, the backing file would
be below `/f`. -/
def asking (system : System) : Opening where
  authority := ⟨fun _ s => ⟨.ok (.bare .success), s, []⟩, fun _ s => ⟨.ok (.bare .success), s, []⟩⟩
  state := ()
  system
  config := { enabled := true, configDir := ⟨[0x2F, 0x64]⟩, shmDir := ⟨[0x2F, 0x66]⟩ }
  answer := .ok .timedOut

/-- `/d` is a directory and `/f` is a file, so no path leads below `/f`. -/
def plainFile : System where
  inode p :=
    if p = ⟨[0x2F, 0x64]⟩ then .ok 2 else if p = ⟨[0x2F, 0x66]⟩ then .ok 3 else .error .notDirectory
  openExisting p := if p = ⟨[0x2F, 0x66]⟩ then .ok ⟨3⟩ else .error .notDirectory
  openEmpty p := if p = ⟨[0x2F, 0x66]⟩ then .ok ⟨3⟩ else .error .notDirectory
  setLength _ _ := .ok ()
  pageSize := .usual

/-- Every path leads to a file, but the machine does not tell the size of its pages. -/
def pageless : System where
  inode _ := .ok 2
  openExisting _ := .ok ⟨3⟩
  openEmpty _ := .ok ⟨3⟩
  setLength _ _ := .ok ()
  pageSize := .indeterminate

/-- The opening that looks for its backing file below `/f`. -/
def belowFile : Opening := asking plainFile

/-- The opening that finds its backing file, but no pages. -/
def withoutPages : Opening := asking pageless

/-- There is nothing at the path, yet the backing file is not reported as missing: the system says
that `/f` is no directory.  And with the file open, the context is still not enabled if the page
size is not known. -/
theorem nothing_at_path_ne_missing :
    (belowFile.decides.enabled = true ∧ belowFile.TakesPart ∧
      belowFile.system.inode belowFile.config.configDir = .ok 2 ∧
      belowFile.system.inode (belowFile.path 2) = .error .notDirectory ∧
      (belowFile.run {}).result = .error (.system .notDirectory) ∧
      (belowFile.run {}).result ≠ .error (.backingFileMissing (belowFile.path 2))) ∧
    withoutPages.decides.enabled = true ∧ withoutPages.TakesPart ∧
      withoutPages.system.inode withoutPages.config.configDir = .ok 2 ∧
      withoutPages.system.openExisting (withoutPages.path 2) = .ok ⟨3⟩ ∧
      (withoutPages.run {}).result =
        .error (.system (.described .other "page size is indeterminate")) := by
  have htakes (system : System) : (asking system).TakesPart := ⟨.bare .success, rfl, nofun⟩
  refine ⟨?below, rfl, htakes _, rfl, rfl, ?paged⟩
  case below =>
    have hinode : belowFile.system.inode belowFile.config.configDir = .ok 2 := rfl
    have hnone : belowFile.system.inode (belowFile.path 2) = .error .notDirectory := by decide
    have hopen : belowFile.system.openExisting (belowFile.path 2) = .error .notDirectory := by
      decide
    have hresult : (belowFile.run {}).result = .error (.system .notDirectory) :=
      (verdict_run belowFile {}).unique (.unopened (htakes _) rfl hinode hopen (by decide))
    exact ⟨rfl, htakes _, hinode, hnone, hresult, hresult ▸ nofun⟩
  case paged =>
    exact (verdict_run withoutPages {}).unique (.unpaged (htakes _) rfl rfl rfl rfl)

end Opening

end SharedSync
