/-! # Log messages

What the library reports besides its answers.  Messages are values: an operation that reports
something has a companion that lists its messages in order.
-/

namespace TaggedOptions.Log

inductive Level where
  | debug
  | info
  | warn
  deriving DecidableEq, Repr

structure Message where
  level : Level
  text : String
  deriving DecidableEq, Repr

end TaggedOptions.Log
