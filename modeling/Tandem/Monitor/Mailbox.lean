import Tandem.Mailbox.Consumer
import Tandem.Monitor.Describe

/-!
Watching a mailbox. Every send has a sender of its own, so commands go on while senders wait.
-/
namespace Tandem

mutual

/-- The call that a datum stands for. -/
def Mailbox.Procedure.ofDatum : Datum → Mailbox.Procedure Datum
  | .text "release" => .release
  | .text "reset" => .reset
  | .text "pending" => .notePending
  | .text "receive" => .receive
  | .record [("push", v)] => .note v
  | .record [("post", .list calls)] => .post (Mailbox.Procedure.ofData calls)
  | .record [("send", .list calls)] => .post (Mailbox.Procedure.ofData calls)
  | .record [("seq", .list calls)] => .sequence (Mailbox.Procedure.ofData calls)
  | .record [("panic", text)] => .panic text.str
  | _ => .nothing

/-- The calls that a list stands for. -/
def Mailbox.Procedure.ofData : List Datum → List (Mailbox.Procedure Datum)
  | [] => []
  | d :: rest => Mailbox.Procedure.ofDatum d :: Mailbox.Procedure.ofData rest

end

def Mailbox.Note.describe : Mailbox.Note Datum → Datum
  | .value v => v
  | .pending b => .list [.text "pending", .flag b]
  | .received b => .list [.text "received", .flag b]

namespace Monitor

/-- A send that had to wait. -/
structure Sender where
  /-- The command that sent. -/
  command : Nat
  /-- The number on which it waits. -/
  id : Nat

structure MailboxBench where
  mailbox : Mailbox (Mailbox.Procedure Datum) := {}
  senders : List Sender := []
  /-- The number of commands obeyed. -/
  commands : Nat := 0

namespace MailboxBench

def wouldBlock : Datum := .text "would block"

def post (b : MailboxBench) (payload : Payload (Mailbox.Procedure Datum)) (wait breakpoint : Bool) :
    MailboxBench :=
  let (id?, mailbox) := b.mailbox.post payload wait breakpoint
  { b with mailbox, senders := b.senders ++ id?.toList.map (⟨b.commands, ·⟩) }

open Mailbox (Consumer)

/-- Let a consumer at the mailbox: what came of it, the mailbox then, and what was noted. -/
def consume (b : MailboxBench) (consumer : Consumer Datum → Consumer.Outcome × Consumer Datum)
    (describe : List Bool → Datum) : Datum × MailboxBench × List Datum :=
  let (outcome, c) := consumer { mailbox := b.mailbox }
  let r := match outcome with
    | .answers breakpoints => describe breakpoints
    | .panic text => .panic text
  (r, { b with mailbox := c.mailbox }, c.notes.reverse.map (·.describe))

def obey (b : MailboxBench) (command : Datum) : Datum × MailboxBench × List Datum :=
  let quiet (r : Datum) (b : MailboxBench) : Datum × MailboxBench × List Datum := (r, b, [])
  let call := Payload.call (Mailbox.Procedure.ofDatum (command.arg 1))
  match (command.arg 0).str with
  | "post" => quiet .null (b.post call false false)
  | "send" => quiet .null (b.post call (command.arg 2).bool (command.arg 3).bool)
  | "flush" => quiet .null (b.post (.call .nothing) true false)
  | "set_can_wait" => quiet .null (b.post (.setCanWait (command.arg 1).bool) true true)
  | "receive" => b.consume Consumer.receive fun bs => .flag (bs.head?.getD false)
  | "drain" => b.consume Consumer.drain fun bs => .list (bs.reverse.map .flag)
  | "process" =>
    if b.mailbox.starves then quiet wouldBlock b
    else b.consume Consumer.processUntilBreakpoint fun _ => .null
  | "wait" => quiet (if b.mailbox.starves then wouldBlock else .null) b
  | "wait_timeout" => quiet (.flag b.mailbox.isPending) b
  | "release" => quiet .null { b with mailbox := b.mailbox.release }
  | "reset" => quiet .null { b with mailbox := b.mailbox.reset }
  | _ => quiet .null b

/-- Obey a command and report on the mailbox. -/
def step (b : MailboxBench) (command : Datum) : Datum × MailboxBench :=
  let (r, b, ran) := b.obey command
  let m := b.mailbox
  let b := { b with commands := b.commands + 1, senders := b.senders.filter (m.holds ·.id) }
  (.record [("r", r), ("pending", .flag m.isPending), ("released", .flag m.isReleased),
    ("queued", .ofNat m.queue.length), ("issued", .ofNat m.issued),
    ("processed", .ofOption .ofNat m.processed), ("can_wait", .flag m.canWait),
    ("blocked", .list (b.senders.map (.ofNat ·.command))), ("ran", .list ran)], b)

end MailboxBench

end Monitor

end Tandem
