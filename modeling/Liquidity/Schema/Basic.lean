import Liquidity.Fault

/-! Reading the parts of a document. All parts are looked at, and the complaints about them
come in the order in which the parts are declared. -/

namespace Liquidity.Schema
set_option autoImplicit false

variable {α β : Type}

/-- Whether a document is handed over as a value or was read from text. -/
inductive Source where
  | value
  | text
deriving DecidableEq, Repr

def refuse (c : Complaint) : Except Fault α := .error (.invalid [⟨c, []⟩])

/-- Complaints about a part, placed in the whole. -/
def within (s : Step) : Except Fault α → Except Fault α
  | .error (.invalid ds) => .error (.invalid (ds.map (Detail.under s)))
  | r => r

/-- Both results, or the complaints about both. Any other fault goes before complaints. -/
def both : Except Fault α → Except Fault β → Except Fault (α × β)
  | .ok a, .ok b => .ok (a, b)
  | .ok _, .error f => .error f
  | .error (.invalid ds), .error (.invalid es) => .error (.invalid (ds ++ es))
  | .error (.invalid _), .error f => .error f
  | .error f, _ => .error f

@[simp] theorem both_ok (a : α) (b : β) : both (.ok a) (.ok b) = .ok (a, b) := rfl

@[simp] theorem within_ok (s : Step) (a : α) : within s (.ok a) = .ok a := rfl

def record (c : Complaint) : Json → Except Fault Json.Members
  | .obj ms => .ok ms
  | _ => refuse c

def required (name : String) (read : Json → Except Fault α) (ms : Json.Members) :
    Except Fault α :=
  match ms.lookup name with
  | some j => within (.member name) (read j)
  | none => .error (.invalid [⟨.missing, [.member name]⟩])

def defaulted (name : String) (usual : α) (read : Json → Except Fault α) (ms : Json.Members) :
    Except Fault α :=
  match ms.lookup name with
  | some j => within (.member name) (read j)
  | none => .ok usual

/-- The items of a list, the first of which has position `i`. -/
def items (read : Json → Except Fault α) : Nat → List Json → Except Fault (List α)
  | _, [] => .ok []
  | i, j :: rest =>
    (both (within (.item i) (read j)) (items read (i + 1) rest)).map fun (a, as) => a :: as

def list (read : Json → Except Fault α) : Json → Except Fault (List α)
  | .arr js => items read 0 js
  | _ => refuse .notList

/-- Lists of at least two. Items that are refused do not count. -/
def listOfTwo (read : Json → Except Fault α) (j : Json) :
    Except Fault { as : List α // 2 ≤ as.length } :=
  match list read j, j with
  | .ok as, _ => if h : 2 ≤ as.length then .ok ⟨as, h⟩ else refuse .tooShort
  | .error (.invalid ds), .arr js =>
    if js.countP (fun j => (read j).isOk) < 2 then .error (.invalid (ds ++ [⟨.tooShort, []⟩]))
    else .error (.invalid ds)
  | .error f, _ => .error f

end Liquidity.Schema
