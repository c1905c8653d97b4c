import Scriptlet.Proofs.Visits

/-!
What happens to the blocks of a program while it runs, in the order in which it does. Whatever the
tree and however the run ends, the scopes that are opened are dropped again and are nested: a scope
is dropped while it is the innermost one, so none that was there before the run is ever dropped. The
log of the run tells of the same blocks.
-/

namespace Scriptlet

/-- A block starts, a statement fails by itself and not by one of the statements in it, or the body
of a block has ended with a result. A block is told with the number of frames above the global one
at that moment. -/
inductive BlockEvent where
  | enter (depth : Nat) (body : List Stmt)
  | fail (s : Stmt)
  | leave (depth : Nat) (result : Except Fault Unit)

/-- What is noted of an event: every start, and an end by an error or a defect. -/
def BlockEvent.trace? : BlockEvent → Option Trace
  | .enter depth body => some (.enterBlock (depth + 1) body.length)
  | .leave depth (.error (.error _)) | .leave depth (.error (.defect _)) => some (.leaveBlock depth)
  | .leave _ _ | .fail _ => none

/-- The statement fails if its own run does. -/
def failing {α : Type} (s : Stmt) : Except Fault α × Machine → List BlockEvent
  | (.ok _, _) => []
  | (.error _, _) => [.fail s]

/-- The events of the loop `s`, from those of its body. -/
def iterateEvents (s : Stmt) (condition : Run Value) (body : Run Unit)
    (inBody : Machine → List BlockEvent) : Nat → Machine → List BlockEvent
  | 0, _ => [.fail s]
  | budget + 1, m =>
    failing s (condition m) ++ afterwards (fun v m =>
      if v.isTruthy then
        inBody m ++ afterwards (fun _ m => iterateEvents s condition body inBody budget m) (body m)
      else []) (condition m)

mutual

/-- The events of running a statement. A block is left however its body ends. -/
def Stmt.blockEvents (budget : Nat) : Stmt → Machine → List BlockEvent
  | .block body, m =>
    let inner := m.enterBlock body.length
    let ended := executeAll budget body inner
    .enter m.scopes.depth body ::
      (programEvents budget body inner ++ [.leave ended.2.scopes.depth ended.1])
  | .conditional condition consequence alternative, m =>
    failing (.conditional condition consequence alternative) (m.evaluate condition) ++
      afterwards (fun v m =>
        if v.isTruthy then consequence.blockEvents budget m else alternative.blockEvents budget m)
        (m.evaluate condition)
  | .loop condition body, m =>
    iterateEvents (.loop condition body) (Machine.evaluate condition)
      (fun m => execute budget body m) (fun m => body.blockEvents budget m) budget m
  | .expression e, m => failing (.expression e) (execute budget (.expression e) m)
  | .print e, m => failing (.print e) (execute budget (.print e) m)
  | .declare name initial, m =>
    failing (.declare name initial) (execute budget (.declare name initial) m)
  | .missing, m => failing .missing (execute budget .missing m)
  | .foreign typeName, m => failing (.foreign typeName) (execute budget (.foreign typeName) m)

/-- The events of running statements in order. -/
def programEvents (budget : Nat) : List Stmt → Machine → List BlockEvent
  | [], _ => []
  | s :: rest, m =>
    s.blockEvents budget m ++
      afterwards (fun _ m => programEvents budget rest m) (execute budget s m)

end

/-- The events of runs from a depth on, told by how they end. -/
inductive Recorded : Nat → List BlockEvent → Except Fault Unit → Prop where
  | nil (depth : Nat) : Recorded depth [] (.ok ())
  | fail (depth : Nat) (s : Stmt) (fault : Fault) : Recorded depth [.fail s] (.error fault)
  | block {depth : Nat} (body : List Stmt) {events : List BlockEvent} {result : Except Fault Unit}
      (h : Recorded (depth + 1) events result) :
      Recorded depth (.enter depth body :: (events ++ [.leave (depth + 1) result])) result
  | append {depth : Nat} {events later : List BlockEvent} {result : Except Fault Unit}
      (h : Recorded depth events (.ok ())) (h' : Recorded depth later result) :
      Recorded depth (events ++ later) result

/-- The second machine has noted the events, behind all that the first one has. -/
def Logs (events : List BlockEvent) (m m' : Machine) : Prop :=
  m'.log.toList = m.log.toList ++ events.filterMap BlockEvent.trace?

namespace Logs

variable {m m' m'' : Machine} {events later : List BlockEvent}

theorem of_log_eq (h : m'.log = m.log) : Logs [] m m' := by
  rw [Logs, h]
  exact (List.append_nil _).symm

theorem append (h : Logs events m m') (h' : Logs later m' m'') : Logs (events ++ later) m m'' := by
  rw [Logs, h', h, List.filterMap_append, List.append_assoc]

theorem enterBlock (body : List Stmt) (m : Machine) :
    Logs [.enter m.scopes.depth body] m (m.enterBlock body.length) :=
  Array.toList_push

theorem noteFault (fault : Fault) (m : Machine) :
    Logs [.leave m.scopes.depth (.error fault)] m (m.noteFault fault) := by
  cases fault <;> simp [Logs, Machine.noteFault, BlockEvent.trace?]

end Logs

theorem log_leaveBlock (result : Except Fault Unit) (m : Machine) :
    (m.leaveBlock result).2.log = m.log := by
  unfold Machine.leaveBlock
  split <;> rfl

/-- A run from the machine `m` ends as told with these events, and has noted them. -/
structure Records (events : List BlockEvent) (m : Machine) (ended : Except Fault Unit × Machine) :
    Prop where
  recorded : Recorded m.scopes.depth events ended.1
  logs : Logs events m ended.2
  depth : ended.2.scopes.depth = m.scopes.depth

namespace Records

variable {m : Machine} {events : List BlockEvent}

theorem done (m : Machine) : Records [] m (.ok (), m) :=
  ⟨.nil _, .of_log_eq rfl, rfl⟩

/-- A run that notes nothing, such as that of a statement without blocks in it. -/
theorem failing (s : Stmt) {ended : Except Fault Unit × Machine} (hlog : ended.2.log = m.log)
    (hdepth : ended.2.scopes.depth = m.scopes.depth) :
    Records (failing s ended) m ended := by
  obtain ⟨result, m'⟩ := ended
  cases result with
  | ok u => exact ⟨.nil _, .of_log_eq hlog, hdepth⟩
  | error fault => exact ⟨.fail _ s fault, .of_log_eq hlog, hdepth⟩

theorem andThen {run next : Run Unit} {later : Machine → List BlockEvent}
    (h : Records events m (run m)) (hnext : ∀ m', Records (later m') m' (next m')) :
    Records (events ++ afterwards (fun _ m => later m) (run m)) m
      (Run.andThen run (fun _ => next) m) := by
  unfold Run.andThen
  generalize run m = r at h ⊢
  obtain ⟨result, m'⟩ := r
  cases result with
  | error fault =>
      rw [afterwards, List.append_nil]
      exact h
  | ok u =>
      have hlater := hnext m'
      have hrecorded := hlater.recorded
      rw [h.depth] at hrecorded
      exact ⟨h.recorded.append hrecorded, h.logs.append hlater.logs, hlater.depth.trans h.depth⟩

/-- The statement `s` evaluates an expression first, and goes on with its value. -/
theorem evaluate (s : Stmt) (e : Expr) {next : Value → Run Unit}
    {later : Value → Machine → List BlockEvent}
    (hnext : ∀ v m', Records (later v m') m' (next v m')) :
    Records (Scriptlet.failing s (m.evaluate e) ++ afterwards later (m.evaluate e)) m
      (Run.andThen (Machine.evaluate e) next m) := by
  have hlog : (m.evaluate e).2.log = m.log := rfl
  have hdepth : (m.evaluate e).2.scopes.depth = m.scopes.depth := depth_evaluate e m.scopes
  unfold Run.andThen
  generalize m.evaluate e = r at hlog hdepth ⊢
  obtain ⟨result, m'⟩ := r
  cases result with
  | error fault => exact ⟨.fail _ s fault, .of_log_eq hlog, hdepth⟩
  | ok v =>
      have hlater := hnext v m'
      have hrecorded := hlater.recorded
      rw [hdepth] at hrecorded
      exact ⟨hrecorded, (Logs.of_log_eq hlog).append hlater.logs, hlater.depth.trans hdepth⟩

theorem iterate (s : Stmt) (e : Expr) {body : Run Unit} {inBody : Machine → List BlockEvent}
    (hb : ∀ m, Records (inBody m) m (body m)) (budget : Nat) (m : Machine) :
    Records (iterateEvents s (Machine.evaluate e) body inBody budget m) m
      (iterate (Machine.evaluate e) body budget m) := by
  induction budget generalizing m with
  | zero => exact ⟨.fail _ s .exhausted, .of_log_eq rfl, rfl⟩
  | succ budget ih =>
      rw [iterate_succ, iterateEvents]
      refine .evaluate s e fun v m' => ?_
      split
      · exact (hb m').andThen ih
      · exact .done m'

/-- A block notes its start, what its body notes, and its end. -/
theorem inBlock {body : List Stmt} {run : Run Unit}
    (houter : Scopes.SameOuter m.scopes.enter (run (m.enterBlock body.length)).2.scopes)
    (h : Records events (m.enterBlock body.length) (run (m.enterBlock body.length))) :
    Records (.enter m.scopes.depth body :: (events ++
        [.leave (run (m.enterBlock body.length)).2.scopes.depth
          (run (m.enterBlock body.length)).1])) m
      (inBlock body.length run m) := by
  cases hrun : run (m.enterBlock body.length) with
  | mk result m' =>
      rw [hrun] at houter h
      obtain ⟨m'', hblock, hscopes⟩ := inBlock_eq hrun houter
      have hinner : m'.scopes.depth = m.scopes.depth + 1 := houter.depth
      have hdepth : m''.scopes.depth = m.scopes.depth := by
        rw [hscopes, Scopes.depth, List.length_tail]
        exact Nat.pred_eq_of_eq_succ hinner
      have hlog : Logs [.leave m'.scopes.depth result] m' m'' := by
        have hmachine : (Scriptlet.inBlock body.length run m).2.log = m''.log := by rw [hblock]
        simp only [Scriptlet.inBlock, hrun] at hmachine
        cases result with
        | ok u =>
            rw [log_leaveBlock] at hmachine
            exact .of_log_eq hmachine.symm
        | error fault =>
            rw [log_leaveBlock] at hmachine
            rw [Logs, ← hmachine]
            exact Logs.noteFault fault m'
      have hrecorded : Recorded (m.scopes.depth + 1) events result := h.recorded
      have hlogs := (Logs.enterBlock body m).append (h.logs.append hlog)
      rw [hblock]
      rw [hinner] at hlogs ⊢
      exact ⟨hrecorded.block body, hlogs, hdepth⟩

end Records

section Execution

variable (budget : Nat)

theorem log_andThen {α β : Type} {run : Run α} {next : α → Run β}
    (h : ∀ m, (run m).2.log = m.log) (hnext : ∀ a m, (next a m).2.log = m.log) (m : Machine) :
    (Run.andThen run next m).2.log = m.log := by
  have hrun := h m
  unfold Run.andThen
  generalize run m = r at hrun ⊢
  obtain ⟨result, m'⟩ := r
  cases result with
  | error fault => exact hrun
  | ok a => exact (hnext a m').trans hrun

theorem log_printValue (v : Value) (m : Machine) : (printValue v m).2.log = m.log := by
  unfold printValue
  split <;> rfl

mutual

theorem records_execute (s : Stmt) (m : Machine) :
    Records (s.blockEvents budget m) m (execute budget s m) := by
  have hdepth := (execute_sameOuter budget s m).depth
  match s with
  | .expression e =>
      refine .failing _ ?_ hdepth
      rw [execute_expression]
      exact log_andThen (fun _ => rfl) (fun _ _ => rfl) m
  | .print e =>
      refine .failing _ ?_ hdepth
      rw [execute_print]
      exact log_andThen (fun _ => rfl) log_printValue m
  | .declare name e =>
      refine .failing _ ?_ hdepth
      rw [execute_declare]
      split
      · rfl
      · exact log_andThen (fun _ => rfl) (fun _ _ => rfl) m
  | .block body =>
      rw [execute_block, Stmt.blockEvents]
      exact .inBlock (executeAll_sameOuter budget body _) (records_executeAll body _)
  | .conditional e s t =>
      rw [execute_conditional, Stmt.blockEvents]
      refine .evaluate _ e fun v m' => ?_
      split
      · exact records_execute s m'
      · exact records_execute t m'
  | .loop e s =>
      rw [execute_loop, Stmt.blockEvents]
      exact .iterate _ e (records_execute s) budget m
  | .missing => exact .failing _ rfl hdepth
  | .foreign typeName => exact .failing _ rfl hdepth

/-- Every run takes place by the events that are told of it, and notes them. -/
theorem records_executeAll (program : List Stmt) (m : Machine) :
    Records (programEvents budget program m) m (executeAll budget program m) := by
  match program with
  | [] => exact .done m
  | s :: rest =>
      rw [executeAll_cons, programEvents]
      exact (records_execute s m).andThen (records_executeAll rest)

end

end Execution

/-- From a depth on, every scope that is opened is dropped again, right above the frames that were
there when it was opened. -/
inductive Nested : Nat → List BlockEvent → Prop where
  | nil (depth : Nat) : Nested depth []
  | fail {depth : Nat} (s : Stmt) {later : List BlockEvent} (hlater : Nested depth later) :
      Nested depth (.fail s :: later)
  | block {depth : Nat} (body : List Stmt) (result : Except Fault Unit)
      {inner later : List BlockEvent} (hinner : Nested (depth + 1) inner)
      (hlater : Nested depth later) :
      Nested depth (.enter depth body :: (inner ++ .leave (depth + 1) result :: later))

namespace Nested

variable {depth : Nat} {events later : List BlockEvent}

theorem append (h : Nested depth events) (h' : Nested depth later) :
    Nested depth (events ++ later) := by
  induction h with
  | nil depth => exact h'
  | fail s _ ih => exact .fail s (ih h')
  | block body result hinner _ _ ih =>
      rw [List.cons_append, List.append_assoc, List.cons_append]
      exact .block body result hinner (ih h')

/-- What is dropped lies above all frames that were there before. -/
theorem lt_of_leave_mem (h : Nested depth events) {k : Nat} {result : Except Fault Unit}
    (hmem : .leave k result ∈ events) : depth < k := by
  induction h with
  | nil depth => cases hmem
  | fail s _ ih =>
      obtain heq | hmem := List.mem_cons.mp hmem
      · cases heq
      · exact ih hmem
  | block body result _ _ ihinner ihlater =>
      simp only [List.mem_cons, List.mem_append, reduceCtorEq, false_or,
        BlockEvent.leave.injEq] at hmem
      obtain hmem | ⟨rfl, -⟩ | hmem := hmem
      · exact Nat.lt_of_succ_lt (ihinner hmem)
      · exact Nat.lt_succ_self _
      · exact ihlater hmem

end Nested

theorem Recorded.nested {depth : Nat} {events : List BlockEvent} {result : Except Fault Unit}
    (h : Recorded depth events result) : Nested depth events := by
  induction h with
  | nil depth => exact .nil depth
  | fail depth s fault => exact .fail s (.nil depth)
  | block body _ ih => exact .block body _ ih (.nil _)
  | append _ _ ih ih' => exact ih.append ih'

end Scriptlet
