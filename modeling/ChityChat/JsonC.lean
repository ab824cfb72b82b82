import Mathlib.Algebra.Group.Int.Defs
import Mathlib.Algebra.Group.Nat.Defs
import Mathlib.Data.List.Basic

namespace ChityChat.JsonC

abbrev Bytes := List UInt8

def utf8 (s : String) : Bytes := s.toUTF8.toList

inductive JsonObject
  | null
  | boolean (b : Bool)
  | int (n : Int)
  | double (digits : String)
  | string (s : Bytes)
  | array (elements : List JsonObject)
  | object (fields : List (String × JsonObject))

namespace JsonObject

def newString (s : String) : JsonObject := .string (utf8 s)

def newInt (n : Nat) : JsonObject :=
  .int (if n % 2 ^ 32 < 2 ^ 31 then n % 2 ^ 32 else (n % 2 ^ 32 : Int) - 2 ^ 32)

def objectGet (json : JsonObject) (key : String) : JsonObject :=
  match json with
  | object fields => ((fields.find? (fun field => field.1 = key)).map Prod.snd).getD .null
  | _ => .null

/-- `json_object_object_add` puts a value in the place of one that the key has. -/
def objectAdd (json : JsonObject) (key : String) (value : JsonObject) : JsonObject :=
  match json with
  | object fields =>
    if fields.any (fun field => field.1 = key) then
      object (fields.map (fun field => if field.1 = key then (key, value) else field))
    else object (fields ++ [(key, value)])
  | _ => json

theorem find?_replaced (fields : List (String × JsonObject)) (key other : String)
    (value : JsonObject) :
    (fields.map (fun field => if field.1 = key then (key, value) else field)).find?
        (fun field => field.1 = other) =
      (fields.find? (fun field => field.1 = other)).map
        (fun field => if field.1 = key then (key, value) else field) := by
  rw [List.find?_map]
  congr 2
  funext field
  by_cases hk : field.1 = key <;> simp [hk]

theorem objectGet_objectAdd (fields : List (String × JsonObject)) (key : String)
    (value : JsonObject) : ((object fields).objectAdd key value).objectGet key = value := by
  rw [objectAdd]
  split
  · rename_i hany
    have hsome := List.find?_isSome.mpr (List.any_eq_true.mp hany)
    obtain ⟨field, hfield⟩ := Option.isSome_iff_exists.mp hsome
    have hk : field.1 = key := by simpa using List.find?_some hfield
    rw [objectGet, find?_replaced, hfield]
    simp [hk]
  · rename_i hany
    have hnone : fields.find? (fun field => field.1 = key) = none := by
      rw [List.find?_eq_none]
      intro field hf hk
      exact hany (List.any_eq_true.mpr ⟨field, hf, hk⟩)
    simp [objectGet, List.find?_append, hnone]

theorem objectGet_objectAdd_of_ne (json : JsonObject) {key other : String} (h : other ≠ key)
    (value : JsonObject) : (json.objectAdd key value).objectGet other = json.objectGet other := by
  cases json with
  | object fields =>
      rw [objectAdd]
      split
      · rw [objectGet, objectGet, find?_replaced]
        cases hf : fields.find? (fun field => field.1 = other) with
        | none => rfl
        | some field =>
            have hk : field.1 = other := by simpa using List.find?_some hf
            simp [hk, h]
      · simp [objectGet, List.find?_append, h.symm]
  | null | boolean | int | double | string | array => rfl

mutual

/-- How deep a value is nested: a scalar or an empty array is one level. -/
def depth : JsonObject → Nat
  | array elements => elementsDepth elements + 1
  | object fields => fieldsDepth fields + 1
  | _ => 1

def elementsDepth : List JsonObject → Nat
  | [] => 0
  | element :: elements => max (depth element) (elementsDepth elements)

def fieldsDepth : List (String × JsonObject) → Nat
  | [] => 0
  | (_, value) :: fields => max (depth value) (fieldsDepth fields)

end

theorem depth_array_le {elements : List JsonObject} {n : Nat} :
    (array elements).depth ≤ n + 1 ↔ ∀ element ∈ elements, element.depth ≤ n := by
  rw [depth, Nat.add_le_add_iff_right]
  induction elements with
  | nil => simp [elementsDepth]
  | cons element elements ih => simp [elementsDepth, Nat.max_le, ih]

end JsonObject

/-- What `RET_IF_JSON_BAD` returns. -/
def invalidStr (key : String) : String := "\"" ++ key ++ "\" is invalid or not found"

/-- A field checked to be an integer, as `json_object_get_int` gives it, saturated. -/
def intField (payload : JsonObject) (key : String) : Except String Int :=
  match payload.objectGet key with
  | .int n => .ok (max (-2 ^ 31) (min n (2 ^ 31 - 1)))
  | _ => .error (invalidStr key)

def stringField (payload : JsonObject) (key : String) : Except String Bytes :=
  match payload.objectGet key with
  | .string s => .ok s
  | _ => .error (invalidStr key)

def arrayField (payload : JsonObject) (key : String) : Except String (List JsonObject) :=
  match payload.objectGet key with
  | .array elements => .ok elements
  | _ => .error (invalidStr key)

theorem bind_ok {ε α β : Type} {x : Except ε α} {f : α → Except ε β} {b : β} :
    (x >>= f) = .ok b ↔ ∃ a, x = .ok a ∧ f a = .ok b := by
  cases x <;> simp [bind, Except.bind]

theorem forM_ok {α ε : Type} {f : α → Except ε Unit} {l : List α} (h : l.forM f = .ok ()) :
    ∀ x ∈ l, f x = .ok () := by
  induction l with
  | nil => simp
  | cons x l ih =>
      rw [List.forM_eq_forM, List.forM_cons, bind_ok] at h
      obtain ⟨u, hx, hl⟩ := h
      rw [List.forall_mem_cons]
      exact ⟨hx, ih hl⟩

theorem stringField_ok {payload : JsonObject} {key : String} {s : Bytes} :
    stringField payload key = .ok s ↔ payload.objectGet key = .string s := by
  rw [stringField]
  split <;> simp_all

theorem arrayField_ok {payload : JsonObject} {key : String} {elements : List JsonObject} :
    arrayField payload key = .ok elements ↔ payload.objectGet key = .array elements := by
  rw [arrayField]
  split <;> simp_all

def u32 (n : Int) : Nat := (n % 2 ^ 32).toNat

end ChityChat.JsonC
