import Sightline.Mesh.Cache

/-!
# Calls on a cache

A call as data: generating a value is told by the calls it makes on the same cache before it
replies. A run answers every call of the tree.
-/

namespace Sightline

inductive CacheCall (K V ε : Type) where
  | get (key : K)
  /-- Ask for the value of a key; generating it makes the nested calls and then replies. -/
  | fetch (key : K) (nested : List (CacheCall K V ε)) (reply : Except ε V)

inductive CacheAnswer (K V ε : Type) where
  | got (value : Option V)
  /-- The value or error, whether it had to be generated, what the nested calls came to, and the key
  that had to go. -/
  | fetched (answer : Except ε V) (generated : Bool) (nested : List (CacheAnswer K V ε))
      (evicted : Option K)

namespace CacheCall

variable {K V ε : Type} [DecidableEq K]

mutual
def run (c : Cache K V) : CacheCall K V ε → CacheAnswer K V ε × Cache K V
  | .get key =>
    let (value, c) := c.lookup key
    (.got value, c)
  | .fetch key nested reply =>
    let fetched := c.fetch key fun c =>
      let (answers, c) := runAll c nested
      (reply, c, answers)
    (.fetched fetched.answer fetched.generated.isSome (fetched.generated.getD [])
      fetched.evicted, fetched.cache)

def runAll (c : Cache K V) : List (CacheCall K V ε) → List (CacheAnswer K V ε) × Cache K V
  | [] => ([], c)
  | call :: calls =>
    let (answer, c) := run c call
    let (answers, c) := runAll c calls
    (answer :: answers, c)
end

end CacheCall

mutual
/-- The keys dropped by a call and the calls inside it, in order. -/
def CacheAnswer.evicted {K V ε : Type} : CacheAnswer K V ε → List K
  | .got _ => []
  | .fetched _ _ nested own => CacheAnswer.evictedAll nested ++ own.toList

def CacheAnswer.evictedAll {K V ε : Type} : List (CacheAnswer K V ε) → List K
  | [] => []
  | answer :: answers => answer.evicted ++ evictedAll answers
end

end Sightline
