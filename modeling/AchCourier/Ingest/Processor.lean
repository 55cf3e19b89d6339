import AchCourier.Ingest.Error
import AchCourier.Ingest.Event

/-!
# Processors

A processor handles files that have come in: it may send events, and it may refuse a file.  What it
does depends on the file alone, so a file can be handled again without harm.

## Main definitions

* `Outcome`, `Processor` — what comes of a file, and who decides it.
* `Sink` — where events go.
* `Processor.corrections`, `Processor.returns`, `Processor.prenotes` — the processors that tell
  what the bank has to say.
-/

namespace AchCourier.Ingest

/-- What comes of handling a file. -/
structure Outcome where
  /-- The events that are sent. -/
  events : List Event := []
  failure : Option Error := none

/-- The failure of an outcome, or none. -/
def Outcome.result (o : Outcome) : Except Error Unit :=
  match o.failure with
  | none => .ok ()
  | some e => .error e

/-- Handles files that have come in. -/
structure Processor where
  name : String
  handle : IncomingFile → Outcome

/-- Where events go. -/
inductive Sink where
  /-- Somebody receives the events. -/
  | live
  /-- Nobody receives events any more. -/
  | closed
  deriving DecidableEq, Repr

/-- What comes of sending an event. -/
def Sink.send : Sink → Event → Outcome
  | .live, e => { events := [e] }
  | .closed, _ => { failure := some .sinkClosed }

namespace Processor

/-- Tells what is found in a file, if anything is. -/
def telling {α : Type} (name : String) (find : Ach.File → List α) (wrap : List α → Findings)
    (sink : Sink) : Processor where
  name
  handle f :=
    match find f.file with
    | [] => {}
    | items => sink.send (.about f (wrap items))

/-- Tells which entries the bank has corrected. -/
def corrections : Sink → Processor :=
  telling "corrections" correctionsIn .corrections

/-- Tells which entries the bank has returned. -/
def returns : Sink → Processor :=
  telling "returns" returnsIn .returns

/-- Tells which entries test an account. -/
def prenotes : Sink → Processor :=
  telling "prenotes" prenotesIn .prenotes

/-- Takes note of a file and does nothing else. -/
def noting (name : String) : Processor where
  name
  handle _ := {}

/-- Refuses every file, with the given messages as independent failures. -/
def refusing (name : String) (messages : List String) : Processor where
  name
  handle _ :=
    match Error.collect (messages.map (.processor name ·)) with
    | .ok () => {}
    | .error e => { failure := some e }

end Processor

end AchCourier.Ingest
