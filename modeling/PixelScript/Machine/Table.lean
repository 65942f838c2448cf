/-! Tables of named entries. A name has at most one entry; writing it again replaces
the entry and keeps its place. -/
namespace PixelScript

abbrev Table (κ ε : Type) := List (κ × ε)

namespace Table

variable {κ ε : Type} [DecidableEq κ]

def get? (key : κ) : Table κ ε → Option ε
  | [] => none
  | (name, entry) :: rest => if name = key then some entry else get? key rest

def insert (key : κ) (value : ε) : Table κ ε → Table κ ε
  | [] => [(key, value)]
  | (name, entry) :: rest =>
    if name = key then (key, value) :: rest else (name, entry) :: insert key value rest

def names (table : Table κ ε) : List κ :=
  table.map Prod.fst

@[simp] theorem get?_nil (key : κ) : get? key ([] : Table κ ε) = none := rfl

@[simp] theorem get?_insert (key name : κ) (value : ε) (table : Table κ ε) :
    get? name (insert key value table) = if key = name then some value else get? name table := by
  induction table with
  | nil => rfl
  | cons first rest ih =>
    obtain ⟨other, entry⟩ := first
    by_cases same : other = key
    · subst same
      simp only [insert, if_true, get?]
      split <;> rfl
    · simp only [insert, if_neg same, get?, ih]
      by_cases found : other = name
      · subst found
        simp [Ne.symm same]
      · simp [found]

end Table
end PixelScript
