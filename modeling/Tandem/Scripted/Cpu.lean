import Tandem.Archive.Field
import Tandem.Console
import Tandem.Scripted.Failure

/-!
Processors and vector units that follow a script. They exercise a machine without being one: what they
answer is laid down beforehand, and they count what is done to them.
-/
namespace Tandem.Scripted

/-- What one call to execute does. -/
inductive Directive
  /-- Use up everything that is offered, or nothing while idle. -/
  | all
  | run (ticks : Int)
  /-- Use up what is offered, but at most so much. -/
  | atMost (ticks : Int)
  /-- Use up so much and stop on a breakpoint. -/
  | breakAfter (ticks : Int)
  | fail (text : String)
  | panic (text : String)
  deriving DecidableEq, Repr

structure Cpu where
  unit : UnitId
  script : List Directive := []
  idle : Bool := false
  idleInVblank : Bool := false
  /-- Stop on a breakpoint once so many ticks have been executed. -/
  breakAt : Option Int := none
  breaking : Bool := false
  memory : Bytes := List.replicate 8 0
  listeners : Nat := 0
  failSave : String := ""
  failLoad : String := ""
  executed : Int := 0
  calls : Nat := 0
  counted : Int := 0
  vblanks : Nat := 0
  resets : Nat := 0
  inVblank : Bool := false
  media : Option MediaRef := none
  deriving Repr

namespace Cpu

def isIdle (c : Cpu) : Bool := c.idle || (c.idleInVblank && c.inVblank)

/-- The next directive of the script; everything is run once it is over. -/
def next (c : Cpu) : Directive × Cpu :=
  match c.script with
  | [] => (.all, c)
  | d :: rest => (d, { c with script := rest })

/-- Execute a number of ticks, or as many of them as the breakpoint allows. -/
def advance (c : Cpu) (ticks : Int) : Execution × Cpu :=
  match c.breakAt with
  | some limit =>
    if limit ≤ c.executed + ticks then
      let ran := max (limit - c.executed) 0
      (.ran ran, { c with breakAt := none, breaking := true, executed := c.executed + ran })
    else (.ran ticks, { c with executed := c.executed + ticks })
  | none => (.ran ticks, { c with executed := c.executed + ticks })

def execute (c : Cpu) (budget : Int) : Execution × Cpu :=
  let (d, c) := next { c with calls := c.calls + 1 }
  match d with
  | .fail text => (.fault ⟨c.unit.name, text⟩, c)
  | .panic text => (.panic text, c)
  | .all => c.advance (if c.isIdle then 0 else budget)
  | .run ticks => c.advance ticks
  | .atMost ticks => c.advance (min ticks budget)
  | .breakAfter ticks => { c with breaking := true }.advance ticks

def save (c : Cpu) (w : Archive.Writer) : Except StateError Archive.Writer :=
  match failure? c.failSave c.unit.name with
  | some e => .error e
  | none => do
    let data ← Archive.Field.encodeAll [.u64 (Int64.ofInt c.executed).toUInt64, .blob c.memory]
    w.insert c.unit.name data

open Archive.FieldReader in
/-- The fields of a saved processor. -/
def fields : Archive.ReadM (UInt64 × Bytes) := return (← u64, ← blob)

def load (c : Cpu) (r : Archive.Reader) : Except StateError Archive.Reader × Cpu :=
  match failure? c.failLoad c.unit.name with
  | some e => (.error e, c)
  | none =>
    match r.read c.unit.name with
    | .error e => (.error e, c)
    | .ok (data, r) =>
      match Archive.FieldReader.readAll c.unit.name data fields with
      | .error e => (.error e, c)
      | .ok (executed, memory) =>
        (.ok r, { c with executed := executed.toInt64.toInt, memory })

instance : Processor Cpu where
  execute := execute
  isIdle := isIdle
  mustBreak c := c.breaking
  skipBreakpoint c := { c with breaking := false }
  reset c := { c with resets := c.resets + 1 }
  countTicks c n := { c with counted := c.counted + n }
  vblankStart c _ _ := ({ c with vblanks := c.vblanks + 1, inVblank := true }, [])
  vblankEnd c := { c with inVblank := false }
  save := save
  load := load
  memory c := c.memory
  withMemory c memory := { c with memory }
  listeners c := c.listeners
  hear c _ _ := c
  setMedia c media := { c with media }

end Cpu

structure Vector where
  breakAt : Option Int := none
  breaking : Bool := false
  executed : Int := 0
  deriving Repr

instance : VectorUnit Vector where
  execute v ticks :=
    let v := { v with executed := v.executed + ticks }
    match v.breakAt with
    | some limit => if limit ≤ v.executed then { v with breakAt := none, breaking := true } else v
    | none => v
  mustBreak v := v.breaking
  skipBreakpoint v := { v with breaking := false }
  reset v := (v, [])

end Tandem.Scripted
