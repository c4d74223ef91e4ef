import ThoughtGate.Shim.Channel

/-!
# The end of a shim

`run_shim` (`shim/proxy/mod.rs`) with the child, its standard output, the two tasks and `shutdown_server`
(`shim/proxy/shutdown.rs`). The main task waits for the first of four events, then for the child to exit, and returns; a task
that has not ended by then is neither aborted nor waited for, and the process ends with it.

`runShim` is the machine of these steps in any order. What the agent's task does is covered by the requests that it
tracks; errors of the pipes are left out, and so is what the server writes after its last newline. What the server has
written is always what has been delivered, what the server's task holds, and what is left in the pipe (`Conserved`). So
nothing is lost exactly if the task has taken everything at the moment when `run_shim` returns
(`output_complete_iff`), and only the end of this task makes sure of it (`taken_of_ended`).
-/

namespace ThoughtGate

namespace Shim

/-- Where `run_shim` stands: in its `select!`, at one of the three steps of `shutdown_server`, or at its end with the
exit code. -/
inductive MainPc where
  | selecting
  | stdinCloseGrace
  | sigtermGrace
  | killing
  | returned (code : Int)
deriving DecidableEq

/-- The branches of the `select!`. -/
inductive Branch where
  | agentToServer
  | serverToAgent
  | childWait
  | shutdown
deriving DecidableEq

structure ShimRun where
  /-- The shutdown signal of the governance. -/
  stopping : Bool := false
  agentEnded : Bool := false
  server : ServerPc := .reading
  serverEnded : Bool := false
  /-- `pending.outbound`: the method under each key. -/
  outbound : Table String String := ∅
  /-- The lines in the pipe from the server's standard output. -/
  stdout : List ByteArray := []
  stdoutOpen : Bool := true
  /-- The status that the child has exited with; a signal gives no code. -/
  exited : Option (Option Int) := none
  main : MainPc := .selecting
  /-- The complete lines that the server has written. -/
  printed : List ByteArray := []
  /-- The lines that were passed on to the agent, each with what was written for it. -/
  delivered : List (ByteArray × Delivery) := []

inductive ShimAct where
  | print (raw : ByteArray)
  | closeStdout
  | exit (code : Option Int)
  | agentTrack (key method : String)
  | agentEnd
  | read
  | remove
  | filter
  | write
  | stop
  | serverStop
  | select (branch : Branch)
  | waited
  | graceOver
  | kill

/-- A line with its newline. -/
def isCompleteLine (raw : ByteArray) : Bool := isLine raw && raw.toList.getLast? == some 10

/-- The line holds a message of at most `MAX_MESSAGE_BYTES`: it is not too long, and not blank. -/
def carries (raw : ByteArray) : Bool :=
  decide (raw.size ≤ maxMessageBytes) && !((String.fromUTF8? raw).any fun buf => (Text.trim buf).isEmpty)

/-- Whether the branch of the `select!` is ready. -/
def Branch.ready (s : ShimRun) : Branch → Bool
  | .agentToServer => s.agentEnded
  | .serverToAgent => s.serverEnded
  | .childWait => s.exited.isSome
  | .shutdown => s.stopping

/-- `run_shim` has returned. -/
def ShimRun.over (s : ShimRun) : Bool :=
  match s.main with
  | .returned _ => true
  | _ => false

section

variable [JsonText] [Glob]

/-- What is written for a line; without a configuration nothing is filtered. -/
def deliverWith (config : Option Config) (serverId : String) (raw : ByteArray) (matched : Option String) : Delivery :=
  match config with
  | none => .raw raw
  | some config => deliver config serverId raw matched

/-- The steps of the child. -/
def ShimRun.childStep (s : ShimRun) : ShimAct → Option ShimRun
  | .print raw =>
    if s.stdoutOpen && isCompleteLine raw then some { s with stdout := s.stdout ++ [raw], printed := s.printed ++ [raw] }
    else none
  | .closeStdout => some { s with stdoutOpen := false }
  | .exit code => if s.exited.isSome then none else some { s with stdoutOpen := false, exited := some code }
  | _ => none

variable [F64.Fmt]

/-- The steps of the two tasks, and the shutdown signal. -/
def ShimRun.taskStep (config : Option Config) (serverId : String) (s : ShimRun) : ShimAct → Option ShimRun
  | .agentTrack key method => if s.agentEnded then none else some { s with outbound := s.outbound.insert key method }
  | .agentEnd => some { s with agentEnded := true }
  | .read =>
    match s.server with
    | .reading =>
      if s.serverEnded || s.stopping then none
      else
        match s.stdout with
        | raw :: rest => some { s with stdout := rest, server := .after raw (readServerLine raw) }
        | [] => if s.stdoutOpen then none else some { s with serverEnded := true }
    | _ => none
  | .remove =>
    match s.server with
    | .removing raw id =>
      let key := outboundKey id
      some { s with server := .filtering raw (s.outbound.lookup key), outbound := s.outbound.erase key }
    | _ => none
  | .filter =>
    match s.server with
    | .filtering raw matched => some { s with server := .writing raw matched (deliverWith config serverId raw matched) }
    | _ => none
  | .write =>
    match s.server with
    | .writing raw _ delivery => some { s with server := .reading, delivered := s.delivered ++ [(raw, delivery)] }
    | _ => none
  | .stop => some { s with stopping := true }
  | .serverStop =>
    match s.server with
    | .reading => if s.stopping then some { s with serverEnded := true } else none
    | _ => none
  | _ => none

/-- The steps of `run_shim` and `shutdown_server`: a timeout is looked at after the child. -/
def ShimRun.mainStep (s : ShimRun) : ShimAct → Option ShimRun
  | .select branch => if s.main = .selecting ∧ branch.ready s then some { s with main := .stdinCloseGrace } else none
  | .waited =>
    match s.main, s.exited with
    | .stdinCloseGrace, some code | .sigtermGrace, some code => some { s with main := .returned (code.getD (-1)) }
    | _, _ => none
  | .graceOver =>
    match s.main, s.exited with
    | .stdinCloseGrace, none => some { s with main := .sigtermGrace }
    | .sigtermGrace, none => some { s with main := .killing }
    | _, _ => none
  | .kill =>
    match s.main with
    | .killing =>
      let status := s.exited.getD none
      some { s with stdoutOpen := false, exited := some status, main := .returned (status.getD (-1)) }
    | _ => none
  | _ => none

def ShimRun.step (config : Option Config) (serverId : String) (s : ShimRun) (a : ShimAct) : Option ShimRun :=
  if s.over then none
  else
    match a with
    | .print _ | .closeStdout | .exit _ => s.childStep a
    | .agentTrack _ _ | .agentEnd | .read | .remove | .filter | .write | .stop | .serverStop =>
      s.taskStep config serverId a
    | .select _ | .waited | .graceOver | .kill => s.mainStep a

/-- A shim from its start. -/
def runShim (config : Option Config) (serverId : String) : Machine ShimRun ShimAct where
  init := {}
  step := ShimRun.step config serverId

end

/-! ### Where the lines are -/

/-- The line that the server's task has taken and not yet written. -/
def ServerPc.holds : ServerPc → List ByteArray
  | .reading => []
  | .removing raw _ | .filtering raw _ | .writing raw _ _ => [raw]

/-- No line that carries something was lost or turned around: each is delivered, held, or in the pipe. -/
def ShimRun.Conserved (s : ShimRun) : Prop :=
  s.printed.filter carries = s.delivered.map Prod.fst ++ s.server.holds ++ s.stdout.filter carries

/-- The server's task holds nothing, and there is nothing more for it to take. -/
def ShimRun.Taken (s : ShimRun) : Prop := s.server.holds = [] ∧ ∀ raw ∈ s.stdout, carries raw = false

instance (s : ShimRun) : Decidable s.Taken := inferInstanceAs (Decidable (_ ∧ _))

variable [JsonText] [Glob]

/-- What is about to be written is what there is to write for the line. -/
def ServerPc.Faithful (config : Option Config) (serverId : String) : ServerPc → Prop
  | .writing raw matched delivery => delivery = deliverWith config serverId raw matched
  | _ => True

/-- Every line that carries something has been written to the agent, in order: as it is, or with its list filtered. -/
structure ShimRun.AllWritten (config : Option Config) (serverId : String) (s : ShimRun) : Prop where
  order : s.delivered.map Prod.fst = s.printed.filter carries
  whole : ∀ e ∈ s.delivered, ∃ matched, e.2 = deliverWith config serverId e.1 matched

/-- What holds as long as no shutdown is asked for. -/
structure ShimRun.Sound (config : Option Config) (serverId : String) (s : ShimRun) : Prop where
  calm : s.stopping = false
  conserved : s.Conserved
  faithful : s.server.Faithful config serverId
  whole : ∀ e ∈ s.delivered, ∃ matched, e.2 = deliverWith config serverId e.1 matched
  ended : s.serverEnded = true → s.server = .reading ∧ s.stdout = [] ∧ s.stdoutOpen = false

omit [Glob] in
theorem readServerLine_skipped_iff (raw : ByteArray) : readServerLine raw = .skipped ↔ carries raw = false := by
  unfold readServerLine carries
  by_cases hsize : raw.size ≤ maxMessageBytes
  · have hnot : ¬ maxMessageBytes < raw.size := by omega
    rw [if_neg hnot]
    cases hbuf : String.fromUTF8? raw with
    | none => simp [hsize]
    | some buf =>
      by_cases hblank : (Text.trim buf).isEmpty = true
      · simp [hblank]
      · have hfull : (Text.trim buf).isEmpty = false := Bool.eq_false_of_not_eq_true hblank
        simp only [hsize, decide_true, Option.any_some, Bool.true_and, hfull, Bool.not_false]
        refine iff_of_false (fun h => ?_) (by decide)
        cases hparse : parseStdioMessage buf with
        | error e => simp [hparse] at h
        | ok msg => cases hkind : msg.kind <;> simp [hparse, hkind] at h
  · have hlong : maxMessageBytes < raw.size := by omega
    rw [if_pos hlong]
    simp [hsize]

omit [Glob] in
/-- A line that carries something is held when it has been read, another one is not. -/
theorem after_holds (raw : ByteArray) : (ServerPc.after raw (readServerLine raw)).holds = [raw].filter carries := by
  cases hcarries : carries raw with
  | false =>
    rw [(readServerLine_skipped_iff raw).mpr hcarries]
    simp [ServerPc.after, ServerPc.holds, hcarries]
  | true =>
    have hread : readServerLine raw ≠ .skipped := by
      intro hskipped
      rw [(readServerLine_skipped_iff raw).mp hskipped] at hcarries
      cases hcarries
    cases hline : readServerLine raw with
    | skipped => exact absurd hline hread
    | untouched => simp [ServerPc.after, ServerPc.holds, hcarries]
    | response id => simp [ServerPc.after, ServerPc.holds, hcarries]

theorem after_faithful (config : Option Config) (serverId : String) (raw : ByteArray) (line : ServerLine) :
    (ServerPc.after raw line).Faithful config serverId := by
  cases line with
  | skipped => trivial
  | untouched => cases config <;> rfl
  | response id => trivial

section

variable {config : Option Config} {serverId : String} {s s' : ShimRun} {a : ShimAct}

theorem ShimRun.Sound.childStep (h : s.Sound config serverId) (hstep : s.childStep a = some s') :
    s'.Sound config serverId := by
  cases a with
  | print raw =>
    simp only [ShimRun.childStep] at hstep
    split at hstep
    · next hopen =>
      cases hstep
      obtain ⟨hopen, -⟩ := Bool.and_eq_true_iff.mp hopen
      refine { h with conserved := ?_, ended := fun hended => ?_ }
      · have hconserved := h.conserved
        unfold ShimRun.Conserved at hconserved ⊢
        dsimp only
        rw [List.filter_append, hconserved, List.filter_append, ← List.append_assoc]
      · -- nothing is written after the end of the output
        rw [(h.ended hended).2.2] at hopen
        cases hopen
    · cases hstep
  | closeStdout =>
    cases hstep
    exact { h with ended := fun hended => ⟨(h.ended hended).1, (h.ended hended).2.1, rfl⟩ }
  | exit code =>
    simp only [ShimRun.childStep] at hstep
    split at hstep
    · cases hstep
    · cases hstep
      exact { h with ended := fun hended => ⟨(h.ended hended).1, (h.ended hended).2.1, rfl⟩ }
  | _ => cases hstep

theorem ShimRun.Sound.read [F64.Fmt] (h : s.Sound config serverId) (hstep : s.taskStep config serverId .read = some s') :
    s'.Sound config serverId := by
  unfold ShimRun.taskStep at hstep
  dsimp only at hstep
  split at hstep
  · next hreading =>
    split at hstep
    · cases hstep
    · next hrunning =>
      simp only [Bool.or_eq_true, not_or, Bool.not_eq_true] at hrunning
      split at hstep
      · next raw rest hstdout =>
        cases hstep
        refine ⟨h.calm, ?_, after_faithful _ _ _ _, h.whole, fun hended => ?_⟩
        · have hconserved := h.conserved
          unfold ShimRun.Conserved at hconserved ⊢
          rw [hreading, hstdout] at hconserved
          dsimp only
          rw [hconserved, after_holds, List.append_assoc, List.append_assoc, ← List.filter_append]
          rfl
        · rw [hrunning.1] at hended
          cases hended
      · next hstdout =>
        split at hstep
        · cases hstep
        · next hclosed =>
          cases hstep
          exact { h with ended := fun _ => ⟨hreading, hstdout, Bool.eq_false_of_not_eq_true hclosed⟩ }
  · cases hstep

/-- The later steps of a round keep the line that they are at, and the last one delivers it. -/
theorem ShimRun.Sound.round [F64.Fmt] (h : s.Sound config serverId)
    (ha : a = .remove ∨ a = .filter ∨ a = .write) (hstep : s.taskStep config serverId a = some s') :
    s'.Sound config serverId := by
  have hconserved := h.conserved
  unfold ShimRun.Conserved at hconserved
  have hnot : s.server ≠ .reading → ∀ {p : Prop}, s.serverEnded = true → p :=
    fun hbusy _ hended => absurd (h.ended hended).1 hbusy
  rcases ha with rfl | rfl | rfl
  · unfold ShimRun.taskStep at hstep
    dsimp only at hstep
    split at hstep
    · next raw id hpc =>
      cases hstep
      rw [hpc] at hconserved hnot
      exact { h with conserved := hconserved, faithful := trivial, ended := hnot (by simp) }
    · cases hstep
  · unfold ShimRun.taskStep at hstep
    dsimp only at hstep
    split at hstep
    · next raw matched hpc =>
      cases hstep
      rw [hpc] at hconserved hnot
      exact { h with conserved := hconserved, faithful := rfl, ended := hnot (by simp) }
    · cases hstep
  · unfold ShimRun.taskStep at hstep
    dsimp only at hstep
    split at hstep
    · next raw matched delivery hpc =>
      cases hstep
      have hfaithful := h.faithful
      rw [hpc] at hconserved hnot hfaithful
      refine ⟨h.calm, ?_, trivial, fun e he => ?_, hnot (by simp)⟩
      · unfold ShimRun.Conserved
        rw [hconserved]
        simp [ServerPc.holds]
      · rcases List.mem_append.mp he with he | he
        · exact h.whole e he
        · rw [List.mem_singleton.mp he]
          exact ⟨matched, hfaithful⟩
    · cases hstep

theorem ShimRun.Sound.taskStep [F64.Fmt] (h : s.Sound config serverId) (hcalm : a ≠ .stop)
    (hstep : s.taskStep config serverId a = some s') : s'.Sound config serverId := by
  cases a with
  | agentTrack key method =>
    unfold ShimRun.taskStep at hstep
    dsimp only at hstep
    split at hstep
    · cases hstep
    · cases hstep
      exact { h with }
  | agentEnd =>
    cases hstep
    exact { h with }
  | read => exact h.read hstep
  | remove => exact h.round (.inl rfl) hstep
  | filter => exact h.round (.inr (.inl rfl)) hstep
  | write => exact h.round (.inr (.inr rfl)) hstep
  | stop => exact absurd rfl hcalm
  | serverStop =>
    simp only [ShimRun.taskStep, h.calm, Bool.false_eq_true, if_false] at hstep
    split at hstep <;> cases hstep
  | _ => cases hstep

omit [JsonText] [Glob] in
/-- The main task touches no line; it ends the child's output at most. -/
theorem ShimRun.mainStep_eq (hstep : s.mainStep a = some s') :
    ∃ open' exited main, s' = { s with stdoutOpen := open', exited, main } ∧ (s.stdoutOpen = false → open' = false) := by
  cases a with
  | select branch =>
    simp only [ShimRun.mainStep] at hstep
    split at hstep
    · cases hstep
      exact ⟨_, _, _, rfl, id⟩
    · cases hstep
  | waited =>
    simp only [ShimRun.mainStep] at hstep
    split at hstep <;> cases hstep <;> exact ⟨_, _, _, rfl, id⟩
  | graceOver =>
    simp only [ShimRun.mainStep] at hstep
    split at hstep <;> cases hstep <;> exact ⟨_, _, _, rfl, id⟩
  | kill =>
    simp only [ShimRun.mainStep] at hstep
    split at hstep
    · cases hstep
      exact ⟨_, _, _, rfl, fun _ => rfl⟩
    · cases hstep
  | _ => cases hstep

theorem ShimRun.Sound.mainStep (h : s.Sound config serverId) (hstep : s.mainStep a = some s') :
    s'.Sound config serverId := by
  obtain ⟨open', exited, main, rfl, hopen⟩ := ShimRun.mainStep_eq hstep
  exact { h with ended := fun hended => ⟨(h.ended hended).1, (h.ended hended).2.1, hopen (h.ended hended).2.2⟩ }

theorem ShimRun.Sound.step [F64.Fmt] (h : s.Sound config serverId) (hcalm : a ≠ .stop)
    (hstep : s.step config serverId a = some s') : s'.Sound config serverId := by
  unfold ShimRun.step at hstep
  split at hstep
  · cases hstep
  · split at hstep
    · exact h.childStep hstep
    · exact h.childStep hstep
    · exact h.childStep hstep
    all_goals first | exact h.taskStep hcalm hstep | exact h.mainStep hstep

/-! ### When `run_shim` returns -/

omit [JsonText] [Glob] in
/-- The step with which `run_shim` returns. -/
def ShimAct.returns : ShimAct → Bool
  | .waited | .kill => true
  | _ => false

omit [JsonText] [Glob] in
theorem ShimRun.childStep_main (hstep : s.childStep a = some s') : s'.main = s.main := by
  cases a with
  | print raw | exit code =>
    simp only [ShimRun.childStep] at hstep
    split at hstep <;> cases hstep
    rfl
  | closeStdout =>
    cases hstep
    rfl
  | _ => cases hstep

theorem ShimRun.taskStep_main [F64.Fmt] (hstep : s.taskStep config serverId a = some s') : s'.main = s.main := by
  cases a with
  | agentTrack key method | remove | filter | write =>
    unfold ShimRun.taskStep at hstep
    dsimp only at hstep
    split at hstep <;> cases hstep
    rfl
  | read =>
    unfold ShimRun.taskStep at hstep
    dsimp only at hstep
    split at hstep
    · split at hstep
      · cases hstep
      · split at hstep
        · cases hstep
          rfl
        · split at hstep <;> cases hstep
          rfl
    · cases hstep
  | serverStop =>
    unfold ShimRun.taskStep at hstep
    dsimp only at hstep
    split at hstep
    · split at hstep <;> cases hstep
      rfl
    · cases hstep
  | agentEnd | stop =>
    cases hstep
    rfl
  | _ => cases hstep

omit [JsonText] [Glob] in
theorem ShimRun.mainStep_over (hstep : s.mainStep a = some s') : s'.over = a.returns := by
  cases a with
  | select branch | waited | graceOver | kill =>
    simp only [ShimRun.mainStep] at hstep
    split at hstep <;> cases hstep <;> rfl
  | _ => cases hstep

theorem ShimRun.step_over [F64.Fmt] (hstep : s.step config serverId a = some s') :
    s.over = false ∧ s'.over = a.returns := by
  unfold ShimRun.step at hstep
  split at hstep
  · cases hstep
  · next hnot =>
    have hover : s.over = false := Bool.eq_false_of_not_eq_true hnot
    have hsame : s'.main = s.main → s'.over = false := by
      intro hmain
      unfold ShimRun.over at hover ⊢
      rw [hmain]
      exact hover
    refine ⟨hover, ?_⟩
    cases a with
    | print _ | closeStdout | exit _ => exact hsame (ShimRun.childStep_main hstep)
    | agentTrack _ _ | agentEnd | read | remove | filter | write | stop | serverStop =>
      exact hsame (ShimRun.taskStep_main hstep)
    | select _ | waited | graceOver | kill => exact ShimRun.mainStep_over hstep

theorem ShimRun.Sound.allWritten_iff (h : s.Sound config serverId) : s.AllWritten config serverId ↔ s.Taken := by
  have hconserved := h.conserved
  unfold ShimRun.Conserved at hconserved
  constructor
  · intro hall
    rw [← hall.order, List.append_assoc] at hconserved
    obtain ⟨hholds, hpipe⟩ := List.append_eq_nil_iff.mp (List.self_eq_append_right.mp hconserved)
    refine ⟨hholds, fun raw hraw => ?_⟩
    have hnone := List.filter_eq_nil_iff.mp hpipe raw hraw
    exact Bool.eq_false_of_not_eq_true hnone
  · rintro ⟨hholds, hpipe⟩
    refine ⟨?_, h.whole⟩
    have hnone : s.stdout.filter carries = [] := by
      refine List.filter_eq_nil_iff.mpr fun raw hraw => ?_
      rw [hpipe raw hraw]
      exact Bool.false_ne_true
    rw [hconserved, hholds, hnone, List.append_nil, List.append_nil]

/-- The end of the server's task makes sure that it has taken everything. -/
theorem ShimRun.Sound.taken_of_ended (h : s.Sound config serverId) (hended : s.serverEnded = true) : s.Taken := by
  obtain ⟨hreading, hstdout, -⟩ := h.ended hended
  refine ⟨?_, fun raw hraw => ?_⟩
  · rw [hreading]
    rfl
  · rw [hstdout] at hraw
    cases hraw

theorem ShimRun.sound_of_reachable [F64.Fmt] {ok : ShimRun → ShimAct → Prop} (hok : ∀ s a, ok s a → a ≠ .stop)
    (h : (runShim config serverId).ReachableWhen ok s) : s.Sound config serverId := by
  refine Machine.ReachableWhen.invariant (I := ShimRun.Sound config serverId) ?_ ?_ h
  · exact ⟨rfl, rfl, trivial, fun e he => absurd he List.not_mem_nil, fun hended => by cases hended⟩
  · intro s a s' _ hs ha hstep
    exact hs.step (hok s a ha) hstep

/-- The returning step leaves the lines where they are. -/
theorem ShimRun.taken_of_returns [F64.Fmt] (hreturns : a.returns = true)
    (hstep : s.step config serverId a = some s') : s'.Taken ↔ s.Taken := by
  have hmain : s.mainStep a = some s' := by
    unfold ShimRun.step at hstep
    split at hstep
    · cases hstep
    · cases a with
      | waited | kill => exact hstep
      | _ => cases hreturns
  obtain ⟨open', exited, main, rfl, -⟩ := ShimRun.mainStep_eq hmain
  rfl

end

/-- Without a shutdown by the governance: when `run_shim` returns, every line has been written to the agent exactly if
the server's task has taken everything; so nothing is lost in a run that returns only then, and the end of the server's
task is enough for it. -/
theorem output_complete_iff [F64.Fmt] (config : Option Config) (serverId : String) :
    (∀ s s' a, (runShim config serverId).ReachableWhen (fun _ a => a ≠ .stop) s → a.returns = true →
      (runShim config serverId).step s a = some s' → (s'.AllWritten config serverId ↔ s.Taken)) ∧
    (∀ s, (runShim config serverId).ReachableWhen (fun s a => a ≠ .stop ∧ (a.returns = true → s.Taken)) s →
      s.over = true → s.AllWritten config serverId) ∧
    ∀ s, (runShim config serverId).ReachableWhen (fun _ a => a ≠ .stop) s → s.serverEnded = true → s.Taken := by
  have hreturned : ∀ s s' a, s.Sound config serverId → a.returns = true →
      (runShim config serverId).step s a = some s' → (s'.AllWritten config serverId ↔ s.Taken) := by
    intro s s' a hs hreturns hstep
    have hcalm : a ≠ .stop := by
      rintro rfl
      cases hreturns
    rw [(hs.step hcalm hstep).allWritten_iff, ShimRun.taken_of_returns hreturns hstep]
  refine ⟨fun s s' a hs => hreturned s s' a (ShimRun.sound_of_reachable (fun _ _ ha => ha) hs), fun s hs hover => ?_, ?_⟩
  · cases hs with
    | init => cases hover
    | step hbefore hok hstep =>
      have hreturns := (ShimRun.step_over hstep).2.symm.trans hover
      have hsound := ShimRun.sound_of_reachable (fun _ _ ha => ha.1) hbefore
      exact (hreturned _ _ _ hsound hreturns hstep).mpr (hok.2 hreturns)
  · intro s hs hended
    exact (ShimRun.sound_of_reachable (fun _ _ ha => ha) hs).taken_of_ended hended

end Shim

section

attribute [local instance] Sample.glob Sample.f64Fmt

namespace Sample

/-- A response of the server. -/
def responseMessage : Value :=
  .object [("jsonrpc", .string "2.0"), ("id", .number (.posInt 1)), ("result", .emptyObject)]

def responseLine : ByteArray := (responseMessage.toJson ++ "\n").toUTF8

@[reducible] def responseText : JsonText := jsonTextOf [responseMessage]

/-- The server answers and exits; its task delivers the line and comes to the end of the output first. -/
def deliveredFirst : List Shim.ShimAct :=
  [.print responseLine, .exit (some 0), .read, .remove, .filter, .write, .read, .select .serverToAgent, .waited]

/-- The server answers and exits, and the main task sees to the child first. -/
def exitSeenFirst : List Shim.ShimAct := [.print responseLine, .exit (some 0), .select .childWait, .waited]

/-- The agent closes its end; the server answers and exits within the grace period. -/
def closedByAgent : List Shim.ShimAct :=
  [.agentEnd, .select .agentToServer, .print responseLine, .exit (some 0), .waited]

/-- No shutdown is asked for. -/
def unstopped (_ : Shim.ShimRun) : Shim.ShimAct → Bool
  | .stop => false
  | _ => true

/-- Nor does `run_shim` return too early. -/
def untilTaken (s : Shim.ShimRun) (a : Shim.ShimAct) : Bool := unstopped s a && (!a.returns || decide s.Taken)

/-- `run_shim` has returned, and the only line that was written has gone nowhere. -/
def loses (agentEnded : Bool) (s : Shim.ShimRun) : Bool :=
  decide (s.main = .returned 0) && s.agentEnded == agentEnded && s.delivered.isEmpty &&
    s.printed.map (·.data) == [responseLine.data] && !(s.printed.filter Shim.carries).isEmpty

end Sample

attribute [local instance] Sample.responseText

theorem Sample.ne_stop_of_unstopped {s : Shim.ShimRun} {a : Shim.ShimAct} (h : Sample.unstopped s a = true) :
    a ≠ .stop := by
  rintro rfl
  cases h

theorem Sample.lost_of_loses {agentEnded : Bool} {s : Shim.ShimRun} (h : Sample.loses agentEnded s = true) :
    s.main = .returned 0 ∧ s.agentEnded = agentEnded ∧ s.delivered = [] ∧
      s.printed.map (·.data) = [Sample.responseLine.data] ∧ ¬ s.AllWritten none "files" := by
  simp only [Sample.loses, Bool.and_eq_true, decide_eq_true_eq, beq_iff_eq, List.isEmpty_iff, Bool.not_eq_true'] at h
  obtain ⟨⟨⟨⟨hmain, hagent⟩, hnone⟩, hprinted⟩, hcarries⟩ := h
  refine ⟨hmain, hagent, hnone, hprinted, fun hall => ?_⟩
  have horder := hall.order
  rw [hnone, List.map_nil] at horder
  rw [← horder] at hcarries
  cases hcarries

def Sample.deliveredRun : (Shim.runShim none "files").RunTo Sample.untilTaken
    fun s => decide (s.main = .returned 0) && s.printed.length == 1 where
  actions := Sample.deliveredFirst
  passes := by decide +kernel

theorem output_complete_iff_sample :
    ∃ s, (Shim.runShim none "files").Reachable s ∧ s.main = .returned 0 ∧ s.printed.length = 1 ∧
      s.AllWritten none "files" := by
  obtain ⟨s, hs, htest⟩ := Sample.deliveredRun.exists_reachableWhen
  obtain ⟨hmain, hprinted⟩ := Bool.and_eq_true_iff.mp htest
  have hmain : s.main = .returned 0 := of_decide_eq_true hmain
  have hwhen : (Shim.runShim none "files").ReachableWhen
      (fun s a => a ≠ .stop ∧ (a.returns = true → s.Taken)) s := by
    refine hs.mono fun s a hok => ?_
    obtain ⟨hcalm, htaken⟩ := Bool.and_eq_true_iff.mp hok
    refine ⟨Sample.ne_stop_of_unstopped hcalm, fun hreturns => ?_⟩
    rw [hreturns] at htaken
    exact of_decide_eq_true htaken
  refine ⟨s, hs.reachable, hmain, beq_iff_eq.mp hprinted, (Shim.output_complete_iff none "files").2.1 s hwhen ?_⟩
  unfold Shim.ShimRun.over
  rw [hmain]

def Sample.exitRun : (Shim.runShim none "files").RunTo Sample.unstopped (Sample.loses false) where
  actions := Sample.exitSeenFirst
  passes := by decide +kernel

def Sample.closedRun : (Shim.runShim none "files").RunTo Sample.unstopped (Sample.loses true) where
  actions := Sample.closedByAgent
  passes := by decide +kernel

/-- The line that the server wrote before it exited is lost, whether the server exits by itself or after the agent has
closed its end. -/
theorem response_lost :
    ∃ s s', (Shim.runShim none "files").ReachableWhen (fun _ a => a ≠ .stop) s ∧ s.main = .returned 0 ∧
      s.agentEnded = false ∧ s.delivered = [] ∧ s.printed.map (·.data) = [Sample.responseLine.data] ∧
      ¬ s.AllWritten none "files" ∧
      (Shim.runShim none "files").ReachableWhen (fun _ a => a ≠ .stop) s' ∧ s'.main = .returned 0 ∧
      s'.agentEnded = true ∧ s'.delivered = [] ∧ s'.printed.map (·.data) = [Sample.responseLine.data] ∧
      ¬ s'.AllWritten none "files" := by
  obtain ⟨s, hs, hlost⟩ := Sample.exitRun.exists_reachableWhen
  obtain ⟨s', hs', hlost'⟩ := Sample.closedRun.exists_reachableWhen
  obtain ⟨hmain, hagent, hnone, hprinted, hall⟩ := Sample.lost_of_loses hlost
  obtain ⟨hmain', hagent', hnone', hprinted', hall'⟩ := Sample.lost_of_loses hlost'
  exact ⟨s, s', hs.mono fun _ _ hok => Sample.ne_stop_of_unstopped hok, hmain, hagent, hnone, hprinted, hall,
    hs'.mono fun _ _ hok => Sample.ne_stop_of_unstopped hok, hmain', hagent', hnone', hprinted', hall'⟩

end

end ThoughtGate
