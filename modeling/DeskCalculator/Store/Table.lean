/-!
A table: values under keys, listed in ascending order of the keys. What is found under a key depends
on the last insertion under that key alone.
-/

namespace DeskCalculator

structure Table (κ ν : Type) where
  entries : List (κ × ν) := []
  deriving DecidableEq, Repr

namespace Table

variable {κ ν : Type} [DecidableEq κ] [Ord κ]

def lookup? (k : κ) : List (κ × ν) → Option ν
  | [] => none
  | (k', v) :: rest => if k = k' then some v else lookup? k rest

def find? (t : Table κ ν) (k : κ) : Option ν := lookup? k t.entries

/-- Puts `v` under `k`, in front of the first greater key. -/
def insertEntry (k : κ) (v : ν) : List (κ × ν) → List (κ × ν)
  | [] => [(k, v)]
  | (k', v') :: rest =>
    if k = k' then (k, v) :: rest
    else if compare k k' = .lt then (k, v) :: (k', v') :: rest
    else (k', v') :: insertEntry k v rest

def insert (t : Table κ ν) (k : κ) (v : ν) : Table κ ν := ⟨insertEntry k v t.entries⟩

theorem lookup?_insertEntry (k k' : κ) (v : ν) (entries : List (κ × ν)) :
    lookup? k' (insertEntry k v entries) = if k' = k then some v else lookup? k' entries := by
  fun_induction insertEntry k v entries with grind [lookup?]

@[simp] theorem find?_insert (t : Table κ ν) (k k' : κ) (v : ν) :
    (t.insert k v).find? k' = if k' = k then some v else t.find? k' :=
  lookup?_insertEntry k k' v t.entries

end Table

end DeskCalculator
