import Liquidity.Json.Token

/-! Reading JSON text. The containers that are still open stand on a stack, the innermost
first, and each token either extends the innermost one, opens another or closes it. -/

namespace Liquidity.Json
set_option autoImplicit false

/-- A container that is still open: the items read so far, last first, or the members read
so far and the name whose value comes next. -/
inductive Frame where
  | arr (items : List Json)
  | obj (members : Members) (name : String)

inductive State where
  | value (stack : List Frame)
  | firstItem (stack : List Frame)
  | firstName (stack : List Frame)
  | name (stack : List Frame) (members : Members)
  | colon (stack : List Frame) (members : Members) (name : String)
  | after (stack : List Frame) (j : Json)

/-- Documents may be nested this deep. -/
def documentDepth : Nat := 200

/-- Opens one more container around the next value. Containers count once they turn out to
hold something. -/
def push (limit : Nat) (frame : Frame) (stack : List Frame) : Option (List Frame) :=
  if stack.length < limit then some (frame :: stack) else none

def begin (stack : List Frame) : Token → Option State
  | .scalar j => some (.after stack j)
  | .openArr => some (.firstItem stack)
  | .openObj => some (.firstName stack)
  | _ => none

def step (limit : Nat) : State → Token → Option State
  | .value stack, t => begin stack t
  | .firstItem stack, .closeArr => some (.after stack (.arr []))
  | .firstItem stack, t => do begin (← push limit (.arr []) stack) t
  | .firstName stack, .closeObj => some (.after stack (.obj []))
  | .firstName stack, .scalar (.str s) => some (.colon stack [] s)
  | .name stack ms, .scalar (.str s) => some (.colon stack ms s)
  | .colon stack ms s, .colon => (push limit (.obj ms s) stack).map .value
  | .after (.arr items :: stack) j, .comma => some (.value (.arr (j :: items) :: stack))
  | .after (.arr items :: stack) j, .closeArr => some (.after stack (.arr (j :: items).reverse))
  | .after (.obj ms s :: stack) j, .comma => some (.name stack (ms.put s j))
  | .after (.obj ms s :: stack) j, .closeObj => some (.after stack (.obj (ms.put s j)))
  | _, _ => none

def run (limit : Nat) (s : State) (ts : List Token) : Option State := ts.foldlM (step limit) s

def finish : State → Option Json
  | .after [] j => some j
  | _ => none

/-- The value of a text that is nested no deeper than `limit`. -/
def read? (limit : Nat) (text : String) : Option Json := do
  finish (← run limit (.value []) (← tokens text.toList))

end Liquidity.Json
