import LangBundle.Process.Behaviour

/-!
# Capturing two streams line by line

Both output streams of a process feed one record.  A line is passed on when its newline arrives, so
lines of the two streams never mix; what stands after the last newline is passed on when its stream
ends.  Because bytes are taken one by one, how a stream is cut into writes makes no difference.
-/

namespace LangBundle.Process

/-- The byte that ends a line. -/
def newline : UInt8 := 10

/-- What was captured: the lines passed on, newest first, and for each stream the line that is not
ended yet, its newest byte first. -/
structure Capture where
  passed : List (Channel × Bytes) := []
  unfinished : PerChannel Bytes := .both []
  deriving Repr, DecidableEq

namespace Capture

/-- Passes on the unfinished line of a stream, if there is one. -/
def flush (c : Capture) (channel : Channel) : Capture :=
  if (c.unfinished.get channel).isEmpty then c
  else
    { passed := (channel, (c.unfinished.get channel).reverse) :: c.passed
      unfinished := c.unfinished.set channel [] }

/-- Takes one byte of a stream. -/
def feedByte (channel : Channel) (c : Capture) (b : UInt8) : Capture :=
  let c := { c with unfinished := c.unfinished.set channel (b :: c.unfinished.get channel) }
  if b = newline then c.flush channel else c

/-- Takes a piece of a stream. -/
def feed (c : Capture) (channel : Channel) (data : Bytes) : Capture :=
  data.foldl (feedByte channel) c

/-- The lines passed on, in the order of their arrival. -/
def lines (c : Capture) : List (Channel × Bytes) :=
  c.passed.reverse

/-- The bytes passed on. -/
def merged (c : Capture) : Bytes :=
  c.lines.flatMap (·.2)

/-- How a stream is cut into pieces makes no difference. -/
theorem feed_append (c : Capture) (channel : Channel) (a b : Bytes) :
    c.feed channel (a ++ b) = (c.feed channel a).feed channel b := by
  simp [feed]

end Capture

end LangBundle.Process
