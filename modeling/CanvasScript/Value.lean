import CanvasScript.Number

/-!
# Values

The data that programs and settings are written in: nulls, flags, numbers, texts, arrays and
objects. An object lists its fields in the order in which their names first appeared.

Model of what a document holds when it has been read, and of the items of raw instructions.

* `Fields.get?` finds a field, and `Fields.put` writes one in place or at the end.
* `isTrue` tells the values that count as present: all but null, false, zeros and empty ones.
* `equalsInt` compares with an integer, where a flag counts as `0` or `1`.

Out of scope: items that no document holds; a date of a settings file stands here as its text. How
deep values are nested is not bounded.
-/

namespace CanvasScript

/-- A value of a program or of settings. -/
inductive Value (α : Type) where
  | null
  | flag (b : Bool)
  | number (n : Number α)
  | text (s : String)
  | array (items : List (Value α))
  | object (fields : List (String × Value α))
  deriving Repr, Inhabited

/-- Named values in order. -/
abbrev Fields (α : Type) := List (String × Value α)

namespace Fields

variable {α : Type}

/-- The value of a field. -/
def get? (name : String) : Fields α → Option (Value α)
  | [] => none
  | (key, value) :: rest => if key = name then some value else get? name rest

/-- The fields with one of them written: in place when the name is there, at the end otherwise. -/
def put (name : String) (value : Value α) : Fields α → Fields α
  | [] => [(name, value)]
  | (key, old) :: rest =>
    if key = name then (name, value) :: rest else (key, old) :: put name value rest

theorem get?_put (name other : String) (value : Value α) (fields : Fields α) :
    (fields.put name value).get? other =
      if name = other then some value else fields.get? other := by
  induction fields with
  | nil => simp [put, get?]
  | cons field rest ih =>
    obtain ⟨key, old⟩ := field
    by_cases h : key = name
    · subst h
      by_cases ho : key = other <;> simp [put, get?, ho]
    · by_cases ho : key = other
      · subst ho
        simp [put, get?, h, Ne.symm h]
      · simp [put, get?, h, ho, ih]

/-- A new field is written at the end. -/
theorem put_new {name : String} {fields : Fields α} (h : name ∉ fields.map Prod.fst)
    (v : Value α) : fields.put name v = fields ++ [(name, v)] := by
  induction fields with
  | nil => rfl
  | cons field fields ih =>
    obtain ⟨hne, hnew⟩ := not_or.mp fun hor => h (List.mem_cons.mpr hor)
    rw [put, if_neg (Ne.symm hne), ih hnew]
    rfl

end Fields

namespace Value

variable {α : Type}

/-- An integer as a value. -/
def int (n : Int) : Value α := .number (.int n)

/-- A scalar as a value. -/
def real (x : α) : Value α := .number (.real x)

/-- Whether the value is null. -/
def isNull : Value α → Bool
  | .null => true
  | _ => false

@[simp] theorem isNull_iff {v : Value α} : v.isNull = true ↔ v = .null := by
  cases v <;> simp [isNull]

/-- The word for the kind of the value in messages. -/
def typeName : Value α → String
  | .null => "NoneType"
  | .flag _ => "bool"
  | .number (.int _) => "int"
  | .number (.real _) => "float"
  | .text _ => "str"
  | .array _ => "list"
  | .object _ => "dict"

/-- The number that a value is, where a flag counts as `0` or `1`. -/
def toNumber? : Value α → Option (Number α)
  | .number n => some n
  | .flag b => some (.int (if b then 1 else 0))
  | _ => none

section

variable [Scalar α]

/-- Whether the value counts as present: it is not null, false, zero or empty. -/
def isTrue : Value α → Bool
  | .null => false
  | .flag b => b
  | .number (.int n) => n != 0
  | .number (.real x) => !Scalar.same x Scalar.zero
  | .text s => s != ""
  | .array items => !items.isEmpty
  | .object fields => !fields.isEmpty

/-- Whether the value is a number or a flag that equals an integer; a flag counts as `0` or `1`. -/
def equalsInt (n : Int) : Value α → Bool
  | .flag b => n == (if b then 1 else 0)
  | .number (.int m) => m == n
  | .number (.real x) => Scalar.same x (Scalar.ofInt n)
  | _ => false

end

end Value

end CanvasScript
