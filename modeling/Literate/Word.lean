/-!
# Words

Numbers that have to fit in 64 bits are below `wordBound`, which is 2 to the power of 64.
-/

namespace Literate

/-- The first number that does not fit in 64 bits. -/
def wordBound : Nat := 18446744073709551616

end Literate
