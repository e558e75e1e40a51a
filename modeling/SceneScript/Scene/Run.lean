import SceneScript.Scene.Step

/-! # Running one script

A run drives one script from its resume point until it suspends, yields, ends or faults.
It executes at most as many instructions as its gas allows: the budget is checked when an
instruction has been found, before it is executed, so a script that runs off its end
reports that even when the budget is used up. -/

namespace SceneScript

/-- Scratch records of a program's instructions, by index. An instruction without an entry
has an untouched record. -/
abbrev Memory := IndexMap CallState

def Memory.callState (m : Memory) (index : Nat) : CallState := m.getD index {}

def Memory.active (m : Memory) : List (Nat × CallState) :=
  m.toList.filter fun e => e.2.isActive

/-- Everything a run changes. -/
structure Run (σ : Type) where
  states : Array ActorState
  memory : Memory
  host : σ
  visited : Array Nat := #[]

/-- What stays fixed during a run. -/
structure RunContext (σ : Type) where
  host : Host σ
  script : ScriptId
  program : Program
  time : FrameTime
  headless : Bool
  gasLimit : Nat

namespace Run

variable {σ : Type}

def script (r : Run σ) (id : ScriptId) : ScriptState := (r.states.getD id.actor {}).get id.kind

def modifyScript (r : Run σ) (id : ScriptId) (f : ScriptState → ScriptState) : Run σ :=
  { r with states := r.states.modify id.actor fun a => a.modify id.kind f }

/-- Execute an instruction, or pass over it when the scene runs headless. -/
def perform (cx : RunContext σ) (offset : Nat) (i : Instruction) (r : Run σ) :
    Except Fault Flow × Run σ :=
  if cx.headless && i.opcode.skippedHeadless then (.ok .advance, r)
  else
    let site : Site := ⟨cx.script, offset, cx.time⟩
    let world : World σ := ⟨r.states, r.memory.callState offset, r.host⟩
    let (flow, world) := (Step.execute cx.host site i).run world
    let memory :=
      if i.opcode.needsCallState then r.memory.insert offset world.callState else r.memory
    (flow, { r with states := world.states, memory, host := world.host })

/-- Fetch, mark as visited and execute the instruction at `offset`, then apply its flow. -/
def step (cx : RunContext σ) (offset : Nat) (i : Instruction) (r : Run σ) :
    Except Fault Unit × Run σ :=
  let entered := r.modifyScript cx.script fun s => { s with reentry := none }
  match perform cx offset i { entered with visited := entered.visited.push offset } with
  | (.error fault, r) => (.error fault, r)
  | (.ok flow, r) => (.ok (), r.modifyScript cx.script (flow.apply offset))

/-- Drive the running script with `gas` instructions left. -/
def drive (cx : RunContext σ) : (gas : Nat) → Run σ → Except Fault Unit × Run σ
  | gas, r =>
    let s := r.script cx.script
    if s.running then
      match cx.program.instructions[s.offset]? with
      | none => (.error (.overrun s.offset cx.program.instructions.size), r)
      | some i =>
        match gas with
        | 0 => (.error (.gasExhausted cx.gasLimit), r)
        | gas + 1 =>
          match step cx s.offset i r with
          | (.error fault, r) => (.error fault, r)
          | (.ok (), r) => drive cx gas r
    else (.ok (), r)

/-- Run the script from its resume point; a script that has ended does nothing. -/
def start (cx : RunContext σ) (r : Run σ) : Except Fault Unit × Run σ :=
  match (r.script cx.script).reentry with
  | none => (.ok (), r)
  | some offset =>
    drive cx cx.gasLimit <|
      r.modifyScript cx.script fun s => { s with offset := offset, running := true }

end Run

end SceneScript
