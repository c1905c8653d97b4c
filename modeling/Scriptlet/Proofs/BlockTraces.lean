import Scriptlet.Proofs.BlockEvents

/-!
The traces of a run and the blocks that are open. A record of a block that is entered tells how many
blocks are open with it, and how many statements it has. A run that succeeds leaves no other
records; one that fails leaves one more for each block that was open at the failing statement, from
the innermost block outwards.
-/

namespace Scriptlet

/-- What happens to the blocks of a program, no matter in which scopes. -/
inductive BlockStep where
  | opens (body : List Stmt)
  | closes
  /-- A statement fails by itself, not by one of the statements in it. -/
  | fails (s : Stmt)

def BlockEvent.step : BlockEvent → BlockStep
  | .enter _ body => .opens body
  | .fail s => .fails s
  | .leave _ _ => .closes

/-- The steps of running statements in order. A block is closed however its body ends. -/
def programSteps (budget : Nat) (program : List Stmt) (m : Machine) : List BlockStep :=
  (programEvents budget program m).map BlockEvent.step

/-- How many blocks are entered and not yet left behind the steps, of `n` in front of them. -/
def openBlocks (n : Nat) : List BlockStep → Nat
  | [] => n
  | .opens _ :: later => openBlocks (n + 1) later
  | .closes :: later => openBlocks (n - 1) later
  | .fails _ :: later => openBlocks n later

/-- The records of the blocks that are entered, where `n` blocks are open in front of the steps. -/
def enterTraces (n : Nat) : List BlockStep → List Trace
  | [] => []
  | .opens body :: later => .enterBlock (1 + n) body.length :: enterTraces (n + 1) later
  | .closes :: later => enterTraces (n - 1) later
  | .fails _ :: later => enterTraces n later

/-- The records of leaving all blocks above the first `n`, of which there are `k`. -/
def leaveTraces (n k : Nat) : List Trace :=
  (List.range' (n + 1) k).reverse.map Trace.leaveBlock

/-- No statement has failed. -/
def Quiet (steps : List BlockStep) : Prop := ∀ s, .fails s ∉ steps

/-- The run comes back with an error, rather than crash or go on for ever. -/
def Fault.isReturned : Fault → Bool
  | .error _ | .defect _ => true
  | .crash | .exhausted => false

section Steps

variable {n : Nat} {front back : List BlockStep}

theorem openBlocks_append :
    openBlocks n (front ++ back) = openBlocks (openBlocks n front) back := by
  induction front generalizing n with
  | nil => rfl
  | cons step front ih => cases step <;> exact ih

theorem enterTraces_append :
    enterTraces n (front ++ back) =
      enterTraces n front ++ enterTraces (openBlocks n front) back := by
  induction front generalizing n with
  | nil => rfl
  | cons step front ih =>
      cases step with
      | opens body => exact congrArg (_ :: ·) ih
      | closes | fails s => exact ih

theorem Quiet.nil : Quiet [] := fun _ => List.not_mem_nil

theorem Quiet.append (h : Quiet front) (h' : Quiet back) : Quiet (front ++ back) := by
  intro s hmem
  obtain hmem | hmem := List.mem_append.mp hmem
  · exact h s hmem
  · exact h' s hmem

theorem Quiet.opens (body : List Stmt) (h : Quiet front) : Quiet (.opens body :: front) := by
  intro s hmem
  obtain heq | hmem := List.mem_cons.mp hmem
  · cases heq
  · exact h s hmem

theorem Quiet.closes : Quiet [.closes] := by
  intro s hmem
  cases List.mem_singleton.mp hmem

theorem leaveTraces_succ (n k : Nat) :
    leaveTraces n (k + 1) = leaveTraces (n + 1) k ++ [.leaveBlock (n + 1)] := by
  rw [leaveTraces, List.range'_succ, List.reverse_cons, List.map_append]
  rfl

end Steps

/-- What has happened in a run that succeeded, where `n` blocks were open when it started. -/
structure Settled (n : Nat) (events : List BlockEvent) : Prop where
  quiet : Quiet (events.map BlockEvent.step)
  balanced : ∀ j, openBlocks j (events.map BlockEvent.step) = j
  noted : events.filterMap BlockEvent.trace? = enterTraces n (events.map BlockEvent.step)

/-- What has happened in a run in which the statement `s` failed in `k` blocks more than were open
when it started. -/
structure Broken (n : Nat) (events : List BlockEvent) (fault : Fault) (before : List BlockStep)
    (s : Stmt) (k : Nat) : Prop where
  split : events.map BlockEvent.step = before ++ .fails s :: List.replicate k .closes
  quiet : Quiet before
  opened : ∀ j, openBlocks j before = j + k
  noted : fault.isReturned = true →
    events.filterMap BlockEvent.trace? = enterTraces n before ++ leaveTraces n k

/-- How the events of a run tell of its end. -/
def Told (n : Nat) (events : List BlockEvent) : Except Fault Unit → Prop
  | .ok _ => Settled n events
  | .error fault => ∃ before s k, Broken n events fault before s k

section Ends

variable {n : Nat} {events later : List BlockEvent}

theorem Settled.append (h : Settled n events) (h' : Settled n later) :
    Settled n (events ++ later) := by
  constructor
  · rw [List.map_append]
    exact h.quiet.append h'.quiet
  · intro j
    rw [List.map_append, openBlocks_append, h.balanced, h'.balanced]
  · rw [List.filterMap_append, List.map_append, enterTraces_append, h.balanced, h.noted, h'.noted]

theorem Settled.append_broken {fault : Fault} {before : List BlockStep} {s : Stmt} {k : Nat}
    (h : Settled n events) (h' : Broken n later fault before s k) :
    Broken n (events ++ later) fault (events.map BlockEvent.step ++ before) s k := by
  constructor
  · rw [List.map_append, h'.split, List.append_assoc]
  · exact h.quiet.append h'.quiet
  · intro j
    rw [openBlocks_append, h.balanced, h'.opened]
  · intro hreturned
    rw [List.filterMap_append, h.noted, h'.noted hreturned, enterTraces_append, h.balanced,
      List.append_assoc]

theorem Settled.block (body : List Stmt) (h : Settled (n + 1) events) :
    Settled n (.enter n body :: (events ++ [.leave (n + 1) (.ok ())])) := by
  have hsteps : (BlockEvent.enter n body :: (events ++ [.leave (n + 1) (.ok ())])).map
      BlockEvent.step = .opens body :: (events.map BlockEvent.step ++ [.closes]) := by
    rw [List.map_cons, List.map_append]
    rfl
  constructor
  · rw [hsteps]
    exact (h.quiet.append .closes).opens body
  · intro j
    rw [hsteps, openBlocks, openBlocks_append, h.balanced]
    rfl
  · have hlast : [BlockEvent.leave (n + 1) (.ok ())].filterMap BlockEvent.trace? = [] := rfl
    rw [hsteps, enterTraces, enterTraces_append, ← h.noted, Nat.add_comm 1 n,
      List.filterMap_cons_some (rfl : BlockEvent.trace? (.enter n body) = some _),
      List.filterMap_append, hlast]
    rfl

/-- The block around a failing statement is left as well, behind all blocks in it. -/
theorem Broken.block (body : List Stmt) {fault : Fault} {before : List BlockStep} {s : Stmt}
    {k : Nat} (h : Broken (n + 1) events fault before s k) :
    Broken n (.enter n body :: (events ++ [.leave (n + 1) (.error fault)])) fault
      (.opens body :: before) s (k + 1) := by
  constructor
  · rw [List.map_cons, List.map_append, h.split, List.append_assoc, List.cons_append,
      List.replicate_succ']
    rfl
  · exact h.quiet.opens body
  · intro j
    rw [openBlocks, h.opened, Nat.add_right_comm, Nat.add_assoc]
  · intro hreturned
    have hlast : [BlockEvent.leave (n + 1) (.error fault)].filterMap BlockEvent.trace? =
        [.leaveBlock (n + 1)] := by
      cases fault with
      | error e | defect d => rfl
      | crash | exhausted => cases hreturned
    rw [List.filterMap_cons_some (rfl : BlockEvent.trace? (.enter n body) = some _),
      List.filterMap_append, h.noted hreturned, hlast, List.append_assoc, ← leaveTraces_succ,
      enterTraces, Nat.add_comm 1 n]
    rfl

theorem Recorded.told {result : Except Fault Unit} (h : Recorded n events result) :
    Told n events result := by
  induction h with
  | nil depth => exact ⟨.nil, fun _ => rfl, rfl⟩
  | fail depth s fault => exact ⟨[], s, 0, rfl, .nil, fun _ => rfl, fun _ => rfl⟩
  | @block depth body events result _ ih =>
      cases result with
      | ok u => exact ih.block body
      | error fault =>
          obtain ⟨before, s, k, hbroken⟩ := ih
          exact ⟨_, s, k + 1, hbroken.block body⟩
  | @append depth events later result _ _ ih ih' =>
      cases result with
      | ok u => exact Settled.append ih ih'
      | error fault =>
          obtain ⟨before, s, k, hbroken⟩ := ih'
          exact ⟨_, s, k, Settled.append_broken ih hbroken⟩

end Ends

/-- The records of a run that starts outside all blocks. Each block that is entered is noted with
one more than the number of blocks that are open at that moment, and with the number of its
statements.
Nothing else is noted by a run that succeeds, in which no statement fails. In one that comes back
with an error, a statement has failed in some number `k` of open blocks, and behind the records of
the blocks entered until then stand those of leaving blocks `k`, `k - 1` and so on to `1`. -/
theorem block_traces_match_open_blocks (budget : Nat) (program : List Stmt) (m : Machine)
    (hdepth : m.scopes.depth = 0) :
    (∀ m', executeAll budget program m = (.ok (), m') →
      Quiet (programSteps budget program m) ∧
        m'.log.toList = m.log.toList ++ enterTraces 0 (programSteps budget program m)) ∧
    (∀ fault m', executeAll budget program m = (.error fault, m') → fault.isReturned = true →
      ∃ before s k, programSteps budget program m =
          before ++ .fails s :: List.replicate k .closes ∧
        Quiet before ∧ openBlocks 0 before = k ∧
        m'.log.toList = m.log.toList ++
          (enterTraces 0 before ++ (List.range' 1 k).reverse.map Trace.leaveBlock)) := by
  have hrecords := records_executeAll budget program m
  have hends := hrecords.recorded.told
  have hlogs := hrecords.logs
  rw [hdepth] at hends
  constructor
  · intro m' hrun
    rw [hrun] at hends hlogs
    exact ⟨hends.quiet, hlogs.trans (congrArg (_ ++ ·) hends.noted)⟩
  · intro fault m' hrun hreturned
    rw [hrun] at hends hlogs
    obtain ⟨before, s, k, hbroken⟩ := hends
    refine ⟨before, s, k, hbroken.split, hbroken.quiet, ?_, ?_⟩
    · exact (hbroken.opened 0).trans (Nat.zero_add k)
    · exact hlogs.trans (congrArg (_ ++ ·) (hbroken.noted hreturned))

/-- Two blocks are open where a name has no binding, and one was closed before. -/
def failingInLoop : List Stmt :=
  [.block [.block [], .loop (.literal (.bool true))
    (.block [.expression (.variable ⟨.identifier, "x", .nil, 1⟩)])]]

theorem block_traces_match_open_blocks_in_loop :
    ({} : Machine).scopes.depth = 0 ∧
      (executeAll 1 failingInLoop {}).2.log.toList =
        [.enterBlock 1 2, .enterBlock 2 0, .enterBlock 2 1, .leaveBlock 2, .leaveBlock 1] ∧
      ∃ before s k, programSteps 1 failingInLoop {} =
          before ++ .fails s :: List.replicate k .closes ∧
        Quiet before ∧ openBlocks 0 before = k ∧
        (executeAll 1 failingInLoop {}).2.log.toList =
          enterTraces 0 before ++ (List.range' 1 k).reverse.map Trace.leaveBlock :=
  ⟨rfl, by decide,
    (block_traces_match_open_blocks 1 failingInLoop {} rfl).2
      (.error ⟨⟨.identifier, "x", .nil, 1⟩, .undefinedVariable⟩) _ rfl rfl⟩

end Scriptlet
