import Mathlib.Algebra.Group.Nat.Defs
import Mathlib.Algebra.Ring.Int.Defs
import Mathlib.Tactic.Common

set_option autoImplicit false

-- The build that is modelled has 64-bit words and a signed char. It uses POSIX
-- semaphores (USE_POSIX_SEM) and neither ulocks nor futexes, so that
-- dispatch_once has no gate.
namespace CultivationMotain.Dispatch

-- What a size_t is reduced by, and a uint32_t.
def sizeLimit : Nat := 2 ^ 64

def countLimit : Nat := 2 ^ 32

def intMax : Nat := 2 ^ 31 - 1

def longMax : Int := 2 ^ 63 - 1

def longMin : Int := -2 ^ 63

-- The result of an atomic addition on a long.
def wrapped (value : Int) : Int := Int.bmod value (2 ^ 64)

end CultivationMotain.Dispatch
