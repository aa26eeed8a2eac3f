import PseudoAsm.Machine.Trap
import PseudoAsm.Text.Blank
import PseudoAsm.Text.Lowercase

/-!
# The register file

Named signed 32-bit registers, created by their first write.  Names are looked up trimmed and in
lowercase.  The file is an association list in strictly ascending order of the names, so two files
with the same values are equal.

* `RegisterFile.key` — the form in which a name is looked up;
* `RegisterFile.insert`, `RegisterFile.find?` — by the exact stored name;
* `RegisterFile.write`, `get?`, `read`, `modify` — by any spelling of a name.
-/

namespace PseudoAsm

/-- Register names with their values, in strictly ascending order of the names. -/
structure RegisterFile where
  entries : List (String × Int32) := []
  ascending : entries.Pairwise (fun a b => a.1 < b.1) := by exact .nil
deriving DecidableEq, Repr

namespace RegisterFile

/-- The file without registers. -/
def empty : RegisterFile := {}

instance : Inhabited RegisterFile := ⟨empty⟩

/-- The form of a register name that the file is looked up with. -/
def key (name : String) : String :=
  Text.lower (Text.trim name)

/-! ### Stored names -/

/-- Put a value under a stored name, at its place in the order. -/
def insertEntry (name : String) (value : Int32) :
    List (String × Int32) → List (String × Int32)
  | [] => [(name, value)]
  | (other, old) :: rest =>
    if name = other then (name, value) :: rest
    else if name < other then (name, value) :: (other, old) :: rest
    else (other, old) :: insertEntry name value rest

theorem mem_insertEntry {name : String} {value : Int32} {entries : List (String × Int32)}
    {e : String × Int32} (h : e ∈ insertEntry name value entries) :
    e = (name, value) ∨ e ∈ entries := by
  induction entries with
  | nil => exact Or.inl (List.mem_singleton.1 h)
  | cons first rest ih =>
    simp only [insertEntry] at h
    split at h
    · rcases List.mem_cons.1 h with rfl | h
      · exact Or.inl rfl
      · exact Or.inr (List.mem_cons_of_mem _ h)
    · split at h
      · exact List.mem_cons.1 h
      · rcases List.mem_cons.1 h with rfl | h
        · exact Or.inr List.mem_cons_self
        · exact (ih h).imp_right (List.mem_cons_of_mem _)

/-- Putting a value keeps the names in order. -/
theorem pairwise_insertEntry {name : String} {value : Int32} {entries : List (String × Int32)}
    (h : entries.Pairwise (fun a b => a.1 < b.1)) :
    (insertEntry name value entries).Pairwise (fun a b => a.1 < b.1) := by
  induction entries with
  | nil => exact List.pairwise_singleton _ _
  | cons first rest ih =>
    obtain ⟨hfirst, hrest⟩ := List.pairwise_cons.1 h
    simp only [insertEntry]
    split
    · next heq => exact List.pairwise_cons.2 ⟨fun e he => heq ▸ hfirst e he, hrest⟩
    · split
      · next hlt =>
        refine List.pairwise_cons.2 ⟨fun e he => ?_, h⟩
        rcases List.mem_cons.1 he with rfl | he
        · exact hlt
        · exact String.lt_trans hlt (hfirst e he)
      · next hne hlt =>
        refine List.pairwise_cons.2 ⟨fun e he => ?_, ih hrest⟩
        rcases mem_insertEntry he with rfl | he
        · exact Std.lt_of_le_of_ne (String.not_lt.1 hlt) (Ne.symm hne)
        · exact hfirst e he

/-- Put a value under exactly this stored name. -/
def insert (file : RegisterFile) (name : String) (value : Int32) : RegisterFile :=
  ⟨insertEntry name value file.entries, pairwise_insertEntry file.ascending⟩

/-- The value that a list of registers has under a stored name. -/
def findEntry (name : String) : List (String × Int32) → Option Int32
  | [] => none
  | (other, value) :: rest => if name = other then some value else findEntry name rest

/-- The value under exactly this stored name. -/
def find? (file : RegisterFile) (name : String) : Option Int32 :=
  findEntry name file.entries

@[simp] theorem find?_empty (name : String) : empty.find? name = none := rfl

theorem findEntry_insertEntry (name other : String) (value : Int32)
    (entries : List (String × Int32)) :
    findEntry other (insertEntry name value entries)
      = if other = name then some value else findEntry other entries := by
  induction entries with
  | nil => simp only [insertEntry, findEntry]
  | cons e rest ih =>
    obtain ⟨k, v⟩ := e
    simp only [insertEntry]
    split
    · next h => subst h; simp only [findEntry]; split <;> rfl
    · split
      · simp only [findEntry]
      · next h _ =>
        simp only [findEntry, ih]
        by_cases hk : other = k
        · subst hk; simp only [if_true, if_neg (Ne.symm h)]
        · simp only [if_neg hk]

/-- After a write the name has the new value and every other name what it had. -/
theorem find?_insert (file : RegisterFile) (name other : String) (value : Int32) :
    (file.insert name value).find? other
      = if other = name then some value else file.find? other :=
  findEntry_insertEntry name other value file.entries

/-! ### Access by any spelling -/

/-- The value of a register, if it was written. -/
def get? (file : RegisterFile) (name : String) : Option Int32 :=
  file.find? (key name)

/-- The value of a register; an unset one is an error and never an implicit zero. -/
def read (file : RegisterFile) (name : String) : Except Trap Int32 :=
  match file.get? name with
  | some value => .ok value
  | none => .error (.unknownRegister (key name))

/-- Set a register, which need not exist. -/
def write (file : RegisterFile) (name : String) (value : Int32) : RegisterFile :=
  file.insert (key name) value

/-- Replace the value of an existing register by what `f` makes of it; the new value and file. -/
def modify (file : RegisterFile) (name : String) (f : Int32 → Except Trap Int32) :
    Except Trap (Int32 × RegisterFile) := do
  let value ← f (← file.read name)
  return (value, file.write name value)

theorem get?_write (file : RegisterFile) (name other : String) (value : Int32) :
    (file.write name value).get? other
      = if key other = key name then some value else file.get? other :=
  find?_insert file (key name) (key other) value

end RegisterFile

end PseudoAsm
