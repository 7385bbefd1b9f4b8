import Sightline.Query.Collector
import Sightline.Query.Option

/-!
# Replies

What a script receives: for every hit its name and whatever else was asked for, and a status code
at the end.
-/

namespace Sightline

inductive Status where
  | hits (count : Nat)
  | noHit
  | insufficientTime
  | malformed
deriving DecidableEq, Repr

/-- The code of a status: the number of hits as far as it fits, zero, or a negative number. -/
def Status.code : Status → Int32
  | .hits count => Int32.ofNat (min count 0x7fffffff)
  | .noHit => 0
  | .insufficientTime => -3
  | .malformed => -1

def Outcome.status : Outcome → Status
  | .hits list => .hits list.length
  | .noHit => .noHit

namespace Reply

/-- What is told about a hit. -/
def stride (flags : DataFlags) (hit : Hit) : List OptionValue :=
  [.text (if flags.rootKey then hit.group else hit.part).text]
    ++ (if flags.linkNumber then [.int hit.link] else [])
    ++ [.vector hit.position]
    ++ (if flags.normal then [.vector hit.normal] else [])

def format (flags : DataFlags) (hits : List Hit) (status : Status) : List OptionValue :=
  hits.flatMap (stride flags) ++ [.int status.code]

end Reply

end Sightline
