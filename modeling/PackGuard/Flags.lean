/-!
Sets of named conditions, kept as one bit per name, and tables with one entry per name. Both are
seen through their names only: `FlagSet` through membership, `Table` through `get`.
-/

namespace PackGuard

/-- A type of finitely many names, each with a place of its own. -/
class Enumerated (κ : Type) where
  size : Nat
  index : κ → Fin size
  all : List κ
  index_injective : ∀ a b : κ, index a = index b → a = b
  mem_all : ∀ a : κ, a ∈ all
  nodup_all : all.Nodup

/-- A set of names, one bit per name. -/
@[ext] structure FlagSet (κ : Type) [Enumerated κ] where
  bits : BitVec (Enumerated.size κ)
  deriving DecidableEq

namespace FlagSet

open Enumerated

variable {κ : Type} [Enumerated κ]

def has (s : FlagSet κ) (a : κ) : Bool := s.bits.getLsbD (index a)

instance : Membership κ (FlagSet κ) := ⟨fun s a => s.has a = true⟩

instance (a : κ) (s : FlagSet κ) : Decidable (a ∈ s) := inferInstanceAs (Decidable (s.has a = true))

instance : EmptyCollection (FlagSet κ) := ⟨⟨0#_⟩⟩

instance : Inhabited (FlagSet κ) := ⟨∅⟩

instance : Insert κ (FlagSet κ) := ⟨fun a s => ⟨s.bits ||| BitVec.twoPow _ (index a)⟩⟩

instance : Singleton κ (FlagSet κ) := ⟨fun a => insert a ∅⟩

instance : SDiff (FlagSet κ) := ⟨fun s t => ⟨s.bits &&& ~~~t.bits⟩⟩

def ofNat (n : Nat) : FlagSet κ := ⟨BitVec.ofNat _ n⟩

def toNat (s : FlagSet κ) : Nat := s.bits.toNat

def filterAll (test : κ → Bool) : FlagSet κ := ((all : List κ).filter test).foldl (fun s a => insert a s) ∅

def any (s : FlagSet κ) (test : κ → Bool) : Bool := (all : List κ).any fun a => s.has a && test a

def isEmpty (s : FlagSet κ) : Bool := s.bits == 0#_

theorem mem_def {a : κ} {s : FlagSet κ} : a ∈ s ↔ s.has a = true := Iff.rfl

@[simp] theorem notMem_empty (a : κ) : a ∉ (∅ : FlagSet κ) := by
  simp [mem_def, has, EmptyCollection.emptyCollection]

@[simp] theorem mem_insert {a b : κ} {s : FlagSet κ} : a ∈ insert b s ↔ a = b ∨ a ∈ s := by
  have place : (index b).val = (index a).val ↔ a = b :=
    ⟨fun h => (index_injective b a (Fin.ext h)).symm, fun h => h ▸ rfl⟩
  simp only [mem_def, has, insert, BitVec.getLsbD_or, BitVec.getLsbD_twoPow, Bool.or_eq_true,
    Bool.and_eq_true, decide_eq_true_eq, place, (index b).isLt, true_and]
  exact or_comm

@[simp] theorem mem_singleton {a b : κ} : a ∈ ({b} : FlagSet κ) ↔ a = b := by
  change a ∈ insert b (∅ : FlagSet κ) ↔ a = b
  simp

@[simp] theorem mem_sdiff {a : κ} {s t : FlagSet κ} : a ∈ s \ t ↔ a ∈ s ∧ a ∉ t := by
  simp [mem_def, has, SDiff.sdiff]

@[simp] theorem mem_filterAll {a : κ} {test : κ → Bool} : a ∈ filterAll test ↔ test a = true := by
  have general : ∀ (names : List κ) (s : FlagSet κ),
      a ∈ names.foldl (fun s a => insert a s) s ↔ a ∈ names ∨ a ∈ s := by
    intro names
    induction names with
    | nil => simp
    | cons b rest ih => intro s; rw [List.foldl_cons, ih, mem_insert, List.mem_cons]; grind
  rw [filterAll, general]
  simp [mem_all]

theorem any_eq_true {s : FlagSet κ} {test : κ → Bool} :
    s.any test = true ↔ ∃ a, a ∈ s ∧ test a = true := by
  simp [any, mem_all, mem_def]

end FlagSet

structure Table (κ : Type) [Enumerated κ] (α : Type) where
  entries : Vector α (Enumerated.size κ)

namespace Table

open Enumerated

variable {κ : Type} [Enumerated κ] {α : Type}

def const (a : α) : Table κ α := ⟨Vector.replicate _ a⟩

def get (t : Table κ α) (k : κ) : α := t.entries[index k]

def set (t : Table κ α) (k : κ) (a : α) : Table κ α := ⟨t.entries.set (index k) a⟩

@[simp] theorem get_const (a : α) (k : κ) : (const a : Table κ α).get k = a := by
  simp [get, const]

@[simp] theorem get_set_self (t : Table κ α) (k : κ) (a : α) : (t.set k a).get k = a := by
  simp [get, set]

theorem get_set_ne (t : Table κ α) {j k : κ} (h : j ≠ k) (a : α) : (t.set k a).get j = t.get j := by
  have apart : (index k).val ≠ (index j).val := fun e => h (index_injective k j (Fin.ext e)).symm
  simp [get, set, Vector.getElem_set_ne, apart]

end Table
end PackGuard
