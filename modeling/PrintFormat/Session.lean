import PrintFormat.Context

/-!
Sessions. Several operations follow each other on one sink: renders with a
context of the session or with the context that all of a program share, and
plain writes. The session may take any context for its own in between. A failed
operation leaves the session usable.
-/
namespace PrintFormat

/-- One operation of a session. -/
inductive Step
  | render (format : Bytes) (args : List Arg) (options : Options)
  | renderShared (format : Bytes) (args : List Arg) (options : Options)
  | write (bytes : Bytes)
  | fill (byte : UInt8) (count : Nat)
  | pad (width : Int) (byte : UInt8) (bytes : Bytes)
  | flush
  | useContext (context : Context)

/-- Goes on with a fresh context. -/
def Step.newContext : Step := .useContext {}

structure Session where
  sink : Sink
  context : Context := {}
  shared : Context := {}

namespace Session

/-- Delivers output outside a render. -/
def deliver (pieces : List Piece) (s : Session) : Except FormatError (Option Nat) × Session :=
  match Sink.putAll pieces s.sink with
  | .ok _ sink => (.ok none, { s with sink })
  | .error e sink => (.error e, { s with sink })

/-- Carries out one operation. A render answers the count of bytes it
delivered. Only a sink without encodings has a flush of its own. -/
def step (s : Session) : Step → Except FormatError (Option Nat) × Session
  | .render format args options =>
      let r := s.context.render s.sink format args options
      (r.outcome.map some, { s with sink := r.sink, context := r.context })
  | .renderShared format args options =>
      let r := s.shared.render s.sink format args options
      (r.outcome.map some, { s with sink := r.sink, shared := r.context })
  | .write bytes => s.deliver [.bytes bytes]
  | .fill byte count => s.deliver [.fill byte count]
  | .pad width byte bytes => s.deliver (aligned width byte bytes)
  | .flush =>
      if s.sink.encodings = 0 then
        match s.sink.flush with
        | .ok _ sink => (.ok none, { s with sink })
        | .error e sink => (.error e, { s with sink })
      else (.ok none, s)
  | .useContext context => (.ok none, { s with context })

/-- Carries out operations in order, each on what the one before left. -/
def run (s : Session) : List Step → List (Except FormatError (Option Nat)) × Session
  | [] => ([], s)
  | op :: rest =>
      let (answer, s) := s.step op
      let (answers, s) := s.run rest
      (answer :: answers, s)

/-- Ends a session: flushes the sink and answers the total count of bytes. -/
def finish (s : Session) : Except FormatError Nat :=
  match s.sink.flush with
  | .ok _ sink => .ok sink.written
  | .error e _ => .error e

end Session
end PrintFormat
