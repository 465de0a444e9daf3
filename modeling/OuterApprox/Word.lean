/-!
# Machine words

Counts and indices are kept in sixty-four bits wherever a caller supplies them.
Most never come near the limit, and this library calculates with plain natural
numbers; the few places where the limit shows are written with the definitions
here.

## Main definitions

* `Word.size`: The number of words.
* `Word.signed`: A natural number read as a signed word.
-/

namespace OuterApprox

namespace Word

/-- The number of sixty-four bit words. -/
def size : Nat := 0x10000000000000000

/-- The largest word. -/
def largest : Nat := size - 1

/-- A natural number read as a signed word: the upper half of the words is
    negative. -/
def signed (n : Nat) : Int := Int.bmod n size

end Word

end OuterApprox
