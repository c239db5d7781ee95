/-!
# Powers of whole numbers

The power of a whole number with a natural exponent is repeated multiplication, for natural numbers
and for integers alike.  Another power may be in scope as well, such as that of a monoid; here `^`
is settled to mean the power of the number type itself, which evaluates without any other structure.
-/

set_option autoImplicit false

namespace ErrorBars

/-- The power of a natural number. -/
instance (priority := high) naturalPower : Pow Nat Nat := instPowNat

/-- The power of an integer. -/
instance (priority := high) integerPower : Pow Int Nat := instPowNat

end ErrorBars
