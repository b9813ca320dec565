import Polyglot.Exchange
import Polyglot.WorkerProcess

/-!
# Playing an exchange with a process

A process and a channel together give rise to the events of an exchange. What the process writes is seen
at once, line by line; time passes only while the process sleeps or waits for a reply. A reply comes
when the channel is done with the call.
-/

namespace Polyglot

open Polyglot.Text (Raw)

/-- An exchange while the process runs. -/
structure Play where
  /-- The exchange. -/
  exchange : Exchange
  /-- The milliseconds since it began. -/
  now : Nat
  /-- Replies that have not come yet with the time when they come, the first one first. -/
  pending : List (Nat × String)
  /-- What has been written to the process and not been read. -/
  inbox : Raw
  /-- Whether the process has not closed its input. -/
  listening : Bool
  /-- The line that the output goes on with; none when no more is read. -/
  output : Option Raw
  /-- The line that is written beside the output; none when no more is read. -/
  diagnostics : Option Raw

namespace Play

/-- A play with a process that has been given some input. -/
def start (inbox : Raw) : Play where
  exchange := .start
  now := 0
  pending := []
  inbox := inbox
  listening := true
  output := some []
  diagnostics := some []

/-- Puts a reply at its place among those that have not come yet, after others of the same time. -/
def insertPending (time : Nat) (line : String) : List (Nat × String) → List (Nat × String)
  | [] => [(time, line)]
  | (t, l) :: rest =>
    if time < t then (time, line) :: (t, l) :: rest else (t, l) :: insertPending time line rest

/-- The play after a call has been handed to the channel, whose reply will come. -/
def expectReply (channel : Option Channel) (p : Play) (count : Nat) (line : String) : Play :=
  match channel with
  | none => p
  | some channel =>
    match channel.reply count line with
    | none => p
    | some (reply, delay) =>
      { p with pending := insertPending (p.now + delay) reply p.pending }

/-- The play after an event. -/
def step (channel : Option Channel) (p : Play) (event : Event) : Play :=
  let x := p.exchange.step channel event
  let q := { p with exchange := x }
  if x.result.isSome then q
  else
    match x.forwarded.drop p.exchange.forwarded.length with
    | line :: _ => q.expectReply channel p.exchange.forwarded.length line
    | [] => q

/-! ### What the process writes -/

/-- The event of a line from an output. -/
def lineEvent : Sink → String → Event
  | .output => .output
  | .diagnostics => .diagnostic

/-- The event of the end of an output. -/
def endEvent : Sink → Event
  | .output => .outputEnd
  | .diagnostics => .diagnosticsEnd

/-- The line that an output goes on with. -/
def partialLine (p : Play) : Sink → Option Raw
  | .output => p.output
  | .diagnostics => p.diagnostics

/-- Changes the line that an output goes on with. -/
def setPartialLine (p : Play) (sink : Sink) (line : Option Raw) : Play :=
  match sink with
  | .output => { p with output := line }
  | .diagnostics => { p with diagnostics := line }

/-- Takes lines from an output: the last one, which has no newline, stays; one that is not text ends
the output. -/
def takeLines (channel : Option Channel) (sink : Sink) (p : Play) : List Raw → Play
  | [] => p.setPartialLine sink (some [])
  | line :: rest =>
    if line.getLast? = some (some '\n') then
      match line.withoutNewline.text? with
      | some text => takeLines channel sink (p.step channel (lineEvent sink text)) rest
      | none => (p.step channel (endEvent sink)).setPartialLine sink none
    else p.setPartialLine sink (some line)

/-- The play after the process has written something. -/
def write (channel : Option Channel) (p : Play) (sink : Sink) (text : Raw) : Play :=
  match p.partialLine sink with
  | none => p
  | some line => p.takeLines channel sink (Raw.lines (line ++ text))

/-- The play after an output of the process has ended. -/
def close (channel : Option Channel) (p : Play) (sink : Sink) : Play :=
  match p.partialLine sink with
  | none => p
  | some line =>
    let p := p.setPartialLine sink none
    let p := match line, line.text? with
      | _ :: _, some text => p.step channel (lineEvent sink text)
      | _, _ => p
    p.step channel (endEvent sink)

/-! ### What the process reads -/

/-- The play after a reply has come. -/
def receive (channel : Option Channel) (p : Play) (time : Nat) (reply : String) : Play :=
  let q := p.step channel (.reply reply)
  let q := { q with now := max q.now time }
  match q.exchange.sent.drop p.exchange.sent.length with
  | line :: _ =>
    if q.listening then { q with inbox := q.inbox ++ Raw.ofString (line ++ "\n") } else q
  | [] => q

/-- The play after the replies that come up to a time. -/
def receiveUntil (channel : Option Channel) (time : Nat) : List (Nat × String) → Play → Play
  | [], p => { p with pending := [] }
  | (t, reply) :: rest, p =>
    if t ≤ time then receiveUntil channel time rest (p.receive channel t reply)
    else { p with pending := (t, reply) :: rest }

/-- The play after some time. -/
def wait (channel : Option Channel) (ms : Nat) (p : Play) : Play :=
  let time := p.now + ms
  { p.receiveUntil channel time p.pending with now := time }

/-- The next line that the process reads, waiting for replies; nothing if it waits for ever. -/
def readLine (channel : Option Channel) (skip : Raw → Bool) :
    List (Nat × String) → Play → Option (Raw × Play)
  | pending, p =>
    let (line, inbox) := Session.nextLine skip p.inbox
    if line ≠ [] then some (line, { p with inbox := inbox, pending := pending })
    else if !p.exchange.inputOpen || !p.listening then
      some ([], { p with inbox := inbox, pending := pending })
    else
      match pending with
      | [] => none
      | (t, reply) :: rest => readLine channel skip rest (p.receive channel t reply)

/-! ### From the beginning to the end -/

/-- Plays a session until the exchange has a result; without one the play goes on for ever. -/
def run (channel : Option Channel) : Session Nat → Play → Play
  | .done _, p => (p.close channel .diagnostics).close channel .output
  | .endless, p => p
  | .write sink text next, p =>
    let p := p.write channel sink text
    if p.exchange.result.isSome then p else run channel (next ()) p
  | .close sink next, p =>
    let p := p.close channel sink
    if p.exchange.result.isSome then p else run channel (next ()) p
  | .read skip next, p =>
    match p.readLine channel skip p.pending with
    | none => p
    | some (line, p) => run channel (next line) p
  | .closeInput next, p => run channel (next ()) { p with listening := false, inbox := [] }
  | .sleep ms next, p => run channel (next ()) (p.wait channel ms)

end Play

end Polyglot
