import ForgeGateway.Proofs.Relay.Pull

/-! # A pull passes on what it reads

In whatever order the client and the forge are read, a pull hands on what it took, unmodified and
in order (`Balanced`), and only after the gate has allowed it (`Asked`).  The client's end of file
is the last that the forge is sent, and the client is not read behind it.  If nothing fails, the
client's output and the exit status are those of the forge's events alone (`Answered`), so they do
not depend on the order in which the two sides were read.  `pull_relay` says so of all runs. -/

namespace ForgeGateway.Relay

/-! ### What is passed on -/

/-- What the forge has written to its error stream, if it yields that. -/
def errorData : ForgeRead → Bytes
  | .ok (some (.stderr b)) => b
  | _ => []

namespace Step

/-- What the forge has written to its error stream, if the step reads that. -/
def errData (st : Step) : Bytes := (st.forgeRead?.map errorData).getD []

/-- What the client has sent, if the step takes that. -/
def clientData (st : Step) : Bytes :=
  match st.taken? with
  | some (.data b) => b
  | _ => []

/-- What a step writes to the client's error stream, and how that went. -/
def errOutput? : Step → Option (Bytes × Except Failure Unit)
  | ⟨.writeErr b, a, _, _⟩ | ⟨.writeErrBy b _, .got a, _, _⟩ => some (b, a)
  | _ => none

/-- What a step writes to the client's output without a failure. -/
def shown (st : Step) : Bytes := (st.output?.map ifWritten).getD []

/-- What a step writes to the client's error stream without a failure. -/
def errShown (st : Step) : Bytes := (st.errOutput?.map ifWritten).getD []

def sentBytes (st : Step) : Bytes := (st.sent?.map Prod.fst).getD []

/-- The step writes to the client or to the forge, and that fails. -/
def writeFails : Step → Bool
  | ⟨.writeOut _, .error _, _, _⟩ | ⟨.writeErr _, .error _, _, _⟩
  | ⟨.writeErrBy _ _, .got (.error _), _, _⟩ | ⟨.send _, .error _, _, _⟩
  | ⟨.sendEof, .error _, _, _⟩ => true
  | _ => false

end Step

/-- Everything that the forge has written to its error stream. -/
def errReceived (h : List Step) : Bytes := (h.map Step.errData).flatten

def clientData (h : List Step) : Bytes := (h.map Step.clientData).flatten

/-- Everything that was written to the client's error stream without a failure. -/
def errShown (h : List Step) : Bytes := (h.map Step.errShown).flatten

def sentBytes (h : List Step) : Bytes := (sent h).flatten

section
variable (h k : List Step) (st : Step)

@[simp] theorem errReceived_append : errReceived (h ++ k) = errReceived h ++ errReceived k := by
  simp [errReceived]

@[simp] theorem clientData_append : clientData (h ++ k) = clientData h ++ clientData k := by
  simp [clientData]

@[simp] theorem errShown_append : errShown (h ++ k) = errShown h ++ errShown k := by
  simp [errShown]

@[simp] theorem sentBytes_append : sentBytes (h ++ k) = sentBytes h ++ sentBytes k := by
  simp [sentBytes]

theorem sentBytes_singleton : sentBytes [st] = st.sentBytes := by
  cases hs : st.sent? <;> simp [sentBytes, Step.sentBytes, hs]

theorem shown_singleton : shown [st] = st.shown := by
  simp [Step.shown]

end

/-- What has been read and is still to be written: to the client's output and error stream, and
to the forge. -/
structure Pending where
  out : Bytes := []
  err : Bytes := []
  up : Bytes := []

/-- What a pull has still to write at a stage. -/
def Flow.pending : Flow → Pending
  | .pipingOut chunk _ _ => { out := chunk }
  | .pipingErr chunk _ _ => { err := chunk }
  | .pipingSend chunk _ => { up := chunk }
  | _ => {}

/-- What a command that is a pull has still to write. -/
def Stage.pending : Stage → Pending
  | .active (.flowing _ f) => f.pending
  | _ => {}

/-- Everything that was read was written, but for what is pending. -/
structure Balanced (h : List Step) (p : Pending) : Prop where
  out : shown h ++ p.out = received h
  err : errShown h ++ p.err = errReceived h
  up : sentBytes h ++ p.up = clientData h

/-- A step that writes what is pending and reads what is pending behind it. -/
structure Step.Passes (st : Step) (p q : Pending) : Prop where
  out : p.out ++ st.data = st.shown ++ q.out
  err : p.err ++ st.errData = st.errShown ++ q.err
  up : p.up ++ st.clientData = st.sentBytes ++ q.up

theorem Balanced.snoc {h : List Step} {st : Step} {p q : Pending} (hb : Balanced h p)
    (hst : st.Passes p q) : Balanced (h ++ [st]) q where
  out := by
    rw [shown_append, received_append, shown_singleton, ← hb.out]
    simp [← hst.out]
  err := by
    rw [errShown_append, errReceived_append, ← hb.err]
    simp [errShown, errReceived, ← hst.err]
  up := by
    rw [sentBytes_append, clientData_append, sentBytes_singleton, ← hb.up]
    simp [clientData, ← hst.up]

/-- What a pull has still to write after a move. -/
def Next.pending : Next → Pending
  | .stage f => f.pending
  | _ => {}

@[simp] theorem errOutput?_readStep (clientOpen : Bool) (r : ForgeRead) (now : Time)
    (c : List Metrics.Measurement) : (readStep clientOpen r now c).errOutput? = none := by
  cases clientOpen <;> rfl

theorem passes_readStep {clientOpen : Bool} {r : ForgeRead} {now : Time}
    {c : List Metrics.Measurement} {q : Pending}
    (out : (readStep clientOpen r now c).data = q.out) (err : errorData r = q.err)
    (up : q.up = []) : (readStep clientOpen r now c).Passes {} q where
  out := by simp [Step.shown, out]
  err := by simp [Step.errData, Step.errShown, err]
  up := by simp [Step.clientData, Step.sentBytes, up]

/-- Unless writing fails, a move of a pull writes what is pending. -/
theorem PullMove.passes {job : Job} {f : Flow} {st : Step} {next : Next}
    (move : PullMove job f st next) (hst : st.writeFails = false) :
    st.Passes f.pending next.pending := by
  cases move with
  | unsent | unended | unshown | unshownErr => cases hst
  | denied | allowed | unconnected | connected | clientGone | clientData | clientEof | sent
  | ended | shown | shownErr | closed => exact ⟨rfl, rfl, rfl⟩
  | broken | breaksOff | done | data | stderr | exits | outputEnds =>
      exact passes_readStep (by simp [Step.data, Next.pending, Flow.pending]) rfl rfl

/-- No writing to the client or to the forge has failed. -/
def AllWritten (h : List Step) : Prop := ∀ st ∈ h, st.writeFails = false

theorem allWritten_snoc {h : List Step} {st : Step} :
    AllWritten (h ++ [st]) ↔ AllWritten h ∧ st.writeFails = false := by
  unfold AllWritten
  rw [List.forall_mem_append, List.forall_mem_singleton]

section
variable {job : Job} {f : Flow} {steps : List Step}

theorem PullMove.keeps_balance {h : List Step} {st : Step} {next : Next}
    (move : PullMove job f st next) (hb : AllWritten h → Balanced h f.pending) :
    AllWritten (h ++ [st]) → Balanced (h ++ [st]) next.pending := by
  intro written
  obtain ⟨before, last⟩ := allWritten_snoc.1 written
  exact (hb before).snoc (move.passes last)

theorem balanced_nil : Balanced [] {} := ⟨rfl, rfl, rfl⟩

/-- At every stage a pull has passed on what it read, but for what it is about to write. -/
theorem Run.balanced (pull : job.exec.service = .uploadPack) {g : Flow}
    (run : Run (.active (.flowing job .consulting)) steps (.active (.flowing job g)))
    (written : AllWritten steps) : Balanced steps g.pending := by
  have kept := run.pull_stage pull (P := fun h f => AllWritten h → Balanced h f.pending)
    (fun _ _ _ _ move hb => move.keeps_balance hb) trivial fun _ => balanced_nil
  exact kept.2 written

theorem FlowRun.balanced (pull : job.exec.service = .uploadPack) {result : Result}
    (run : FlowRun job .consulting steps result) (written : AllWritten steps) :
    Balanced steps {} := by
  obtain ⟨init, g, st, rfl, hb, last⟩ :=
    run.pull_invariant pull (P := fun h f => AllWritten h → Balanced h f.pending)
      (fun _ _ _ _ move hb => move.keeps_balance hb) trivial fun _ => balanced_nil
  exact last.keeps_balance hb written

end

/-! ### The gate -/

/-- The gate was asked about the pull and nothing else, and gave no reason against it. -/
def AllowedPull (job : Job) (h : List Step) : Prop :=
  ∃ v, consultations h = [(job.approval none, .ok v)] ∧ v.error = none ∧ v.blocked = none

/-- The gate was asked about the pull, once. -/
def AskedPull (job : Job) (h : List Step) : Prop :=
  ∃ a, consultations h = [(job.approval none, a)]

/-- What has been done about the gate when a pull is at a stage. -/
def PullGate (job : Job) (h : List Step) : Flow → Prop
  | .consulting => h = []
  | _ => AllowedPull job h

section
variable {job : Job} {h : List Step} {st : Step}

theorem AllowedPull.asked (ha : AllowedPull job h) : AskedPull job h := by
  obtain ⟨v, hv, -⟩ := ha
  exact ⟨.ok v, hv⟩

theorem AllowedPull.snoc (ha : AllowedPull job h) (hst : st.consulted? = none) :
    AllowedPull job (h ++ [st]) := by
  obtain ⟨v, hv, reasons⟩ := ha
  exact ⟨v, by simp [hv, hst], reasons⟩

theorem AskedPull.snoc (ha : AskedPull job h) (hst : st.consulted? = none) :
    AskedPull job (h ++ [st]) := by
  obtain ⟨a, ha⟩ := ha
  exact ⟨a, by simp [ha, hst]⟩

theorem PullMove.keeps_gate {f : Flow} {next : Next} (move : PullMove job f st next)
    (hf : PullGate job h f) :
    next.Holds (PullGate job (h ++ [st])) (AskedPull job (h ++ [st])) := by
  cases move with
  | denied =>
      obtain rfl : h = [] := hf
      exact ⟨_, rfl⟩
  | allowed reasons =>
      obtain rfl : h = [] := hf
      exact ⟨_, rfl, reasons⟩
  | unconnected | closed => exact (AllowedPull.asked hf).snoc rfl
  | connected | clientGone | clientData | clientEof | sent | unsent | ended | unended | shown
  | unshown | shownErr | unshownErr => exact AllowedPull.snoc hf rfl
  | broken | breaksOff | done | data | stderr | exits | outputEnds =>
      exact AllowedPull.snoc hf (consulted?_readStep ..)

theorem Run.pullGate (pull : job.exec.service = .uploadPack) {steps : List Step} {s : Stage}
    (run : Run (.active (.flowing job .consulting)) steps s) :
    s.Holds job (fun f => f.InPull ∧ PullGate job steps f) (AskedPull job steps) :=
  run.pull_invariant pull (fun _ _ _ _ move hf => move.keeps_gate hf)
    (fun _ _ _ _ _ ha => ha.snoc rfl) (fun _ _ _ _ _ ha => ha.snoc rfl) trivial rfl

theorem Run.pull_at (pull : job.exec.service = .uploadPack) {before after : List Step}
    {s : Stage} (run : Run (.active (.flowing job .consulting)) (before ++ st :: after) s) :
    (∃ f next, PullGate job before f ∧ f.InPull ∧ PullMove job f st next ∧
      Run (Active.onNext job next).1 after s) ∨
    (∃ b, st.request = .writeErr b) ∨ ∃ status, st.request = .finish status :=
  run.pull_step pull (P := PullGate job) (fun _ _ _ _ move hf => move.keeps_gate hf) rfl

theorem PullMove.asks_first {st : Step} {next : Next} (move : PullMove job .consulting st next) :
    st.dials = false ∧ st.request.readsClient = false := by
  cases move <;> exact ⟨rfl, rfl⟩

/-- A step that connects or reads the client comes behind an answer of the gate that allows the
pull. -/
theorem Run.allowed_before (pull : job.exec.service = .uploadPack) {before after : List Step}
    {s : Stage} (run : Run (.active (.flowing job .consulting)) (before ++ st :: after) s)
    (hst : st.dials ∨ st.request.readsClient) : AllowedPull job before := by
  rcases run.pull_at pull with ⟨f, next, gate, -, move, -⟩ | other
  · cases f with
    | consulting =>
        obtain ⟨dials, reads⟩ := move.asks_first
        simp [dials, reads] at hst
    | _ => exact gate
  · obtain ⟨r, a, t, c⟩ := st
    rcases other with ⟨b, rfl⟩ | ⟨status, rfl⟩ <;> rcases hst with hst | hst <;> cases hst

end

/-! ### The end of the client's input -/

/-- The client's input has ended, or is no longer read. -/
def Flow.InputEnded : Flow → Prop
  | .piping _ clientOpen | .pipingOut _ _ clientOpen | .pipingErr _ _ clientOpen =>
    clientOpen = false
  | .closing _ => True
  | _ => False

/-- The forge was sent nothing, and the client was not read. -/
structure Quiet (h : List Step) : Prop where
  sent : sent h = []
  inputEnds : inputEnds h = 0
  unread : ∀ st ∈ h, st.request.readsClient = false

section
variable {job : Job} {h : List Step} {st : Step}

theorem Quiet.snoc (hq : Quiet h) (hs : st.sent? = none) (he : st.endsInput = false)
    (hr : st.request.readsClient = false) : Quiet (h ++ [st]) where
  sent := by simp [hq.sent, hs]
  inputEnds := by simp [hq.inputEnds, he]
  unread := List.forall_mem_append.2 ⟨hq.unread, List.forall_mem_singleton.2 hr⟩

theorem quiet_nil : Quiet [] := ⟨rfl, rfl, by simp⟩

theorem PullMove.keeps_quiet {f : Flow} {next : Next} (move : PullMove job f st next)
    (hf : f.InputEnded ∧ Quiet h) :
    next.Holds (fun g => g.InputEnded ∧ Quiet (h ++ [st])) (Quiet (h ++ [st])) := by
  obtain ⟨ended, hq⟩ := hf
  cases move with
  | denied | allowed | unconnected | connected | sent | unsent | ended | unended =>
      exact ended.elim
  | clientGone | clientData | clientEof => cases ended
  | broken | breaksOff | done =>
      refine ⟨trivial, hq.snoc (sent?_readStep ..) (endsInput_readStep ..) ?_⟩
      rw [readsClient_readStep]
      exact ended
  | data | stderr | exits | outputEnds =>
      refine ⟨ended, hq.snoc (sent?_readStep ..) (endsInput_readStep ..) ?_⟩
      rw [readsClient_readStep]
      exact ended
  | shown | shownErr => exact ⟨ended, hq.snoc rfl rfl rfl⟩
  | unshown | unshownErr => exact ⟨trivial, hq.snoc rfl rfl rfl⟩
  | closed => exact hq.snoc rfl rfl rfl

/-- Where the client's input has ended, nothing more is sent or read. -/
theorem Run.quiet (pull : job.exec.service = .uploadPack) {f : Flow} (stage : f.InPull)
    (ended : f.InputEnded) {steps : List Step} {s : Stage}
    (run : Run (.active (.flowing job f)) steps s) : Quiet steps := by
  have kept := run.pull_invariant pull (P := fun h g => g.InputEnded ∧ Quiet h) (Q := Quiet)
    (fun _ _ _ _ move hf => move.keeps_quiet hf) (fun _ _ _ _ _ hq => hq.snoc rfl rfl rfl)
    (fun _ _ _ _ _ hq => hq.snoc rfl rfl rfl) stage ⟨ended, quiet_nil⟩
  exact kept.elim fun _ hf => hf.2.2

/-- What stands behind the end of the forge's input. -/
theorem Run.quiet_after (pull : job.exec.service = .uploadPack) {before after : List Step}
    {s : Stage} (run : Run (.active (.flowing job .consulting)) (before ++ st :: after) s)
    (hst : st.endsInput) : Quiet after := by
  rcases run.pull_at pull with ⟨f, next, -, -, move, rest⟩ | other
  · cases move with
    | ended | unended => exact Run.quiet pull (by trivial) (by trivial) rest
    | broken | breaksOff | done | data | stderr | exits | outputEnds =>
        rw [endsInput_readStep] at hst
        cases hst
    | _ => cases hst
  · obtain ⟨r, a, t, c⟩ := st
    rcases other with ⟨b, rfl⟩ | ⟨status, rfl⟩ <;> cases hst

end

/-! ### The loss of the client -/

/-- The step finds the client's input ended without an end of file. -/
def Step.losesClient : Step → Bool
  | ⟨.readEither, .client none, _, _⟩ | ⟨.readClientBy _, .got none, _, _⟩ => true
  | _ => false

@[simp] theorem losesClient_readStep (clientOpen : Bool) (r : ForgeRead) (now : Time)
    (c : List Metrics.Measurement) : (readStep clientOpen r now c).losesClient = false := by
  cases clientOpen <;> rfl

/-- A pull that has lost its client closes the connection and says so. -/
theorem Run.ends_without_client {job : Job} (pull : job.exec.service = .uploadPack)
    {before after : List Step} {st : Step} {s : Stage}
    (run : Run (.active (.flowing job .consulting)) (before ++ st :: after) s)
    (lost : st.losesClient) :
    after.map Step.request <+: .close :: ending (.error .clientGone) ∧
      ∀ status, s = .finished status →
        after.map Step.request = .close :: ending (.error .clientGone) ∧ status = 1 := by
  rcases run.pull_at pull with ⟨f, next, -, -, move, rest⟩ | other
  · cases move with
    | clientGone =>
        have settles := rest.settles
        exact ⟨settles.starts, fun status => (settles.finished status).1⟩
    | broken | breaksOff | done | data | stderr | exits | outputEnds =>
        rw [losesClient_readStep] at lost
        cases lost
    | _ => cases lost
  · obtain ⟨r, a, t, c⟩ := st
    rcases other with ⟨b, rfl⟩ | ⟨status, rfl⟩ <;> cases lost

end ForgeGateway.Relay
