import Chip8.Failure

/-!
# Standard streams

A tool prints its lines on two streams, and a stream may refuse a line: the device behind it is full
or gone, or the encoding of the stream has no code for a character of the line.  What a stream does
is not for the tool to know beforehand, so it is given from outside, line by line.

* `Refusal` is why a line was refused, `Refusal.failure` the failure that this is for a tool.
* `Streams` says which lines are refused in a run; `Streams.working` refuses none.

A line is taken completely or not at all.
-/

namespace Chip8

/-- The two streams: results and messages. -/
inductive Channel
  | out | err
  deriving DecidableEq, Repr

/-- **Why a stream refuses a line.** -/
inductive Refusal
  /-- The device behind the stream reports an error. -/
  | device (error : SystemError)
  /-- The stream has no code for some character; the message is its own. -/
  | unencodable (message : String)
  deriving DecidableEq, Repr

def Refusal.failure : Refusal → Failure
  | device error => .system error
  | unencodable message => .unexpected message

/-- **What the streams do with the lines of a run.**  Whether a line is refused may depend on the
    step at which it is printed, on its stream and on the line. -/
structure Streams where
  refusal? : Nat → Channel → String → Option Refusal

namespace Streams

/-- Streams that take every line. -/
def working : Streams := ⟨fun _ _ _ => none⟩

/-- What the streams do from the next step on. -/
def later (streams : Streams) : Streams := ⟨fun step => streams.refusal? (step + 1)⟩

end Streams

end Chip8
