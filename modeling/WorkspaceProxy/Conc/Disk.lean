import Mathlib.Data.List.Basic
import Mathlib.Logic.Function.Basic

/-! # A directory and its crashes

A directory maps names to files, and a file has data. What was not synced is not
durable: after a crash a file that was written and not synced has any data, and
an entry that was changed is one of those it was since the directory was last
synced, each name for itself. A rename is atomic: the name it takes over goes
from the one file to the other. -/
namespace WorkspaceProxy.Conc

/-- A file, and whether its data is durable. -/
structure File (D : Type) where
  data : D
  synced : Bool

/-- `past` has what an entry was and may be again after a crash. An entry leads
to a file, and did so in the past. -/
structure Disk (N D : Type) where
  entries : N → Option Nat
  past : N → List (Option Nat)
  files : Nat → Option (File D)
  sound : ∀ n i, entries n = some i ∨ some i ∈ past n → files i ≠ none

namespace Disk
variable {N D : Type}

/-- What a read of the name gives. -/
def lookup (d : Disk N D) (n : N) : Option D :=
  (d.entries n).bind fun i => (d.files i).map File.data

/-- `d'` is what a crash may leave of `d`. -/
structure Crash (d d' : Disk N D) : Prop where
  entries : ∀ n, d'.entries n = d.entries n ∨ d'.entries n ∈ d.past n
  past : ∀ n, d'.past n = []
  files : ∀ i f, d.files i = some f →
    ∃ x, d'.files i = some ⟨x, true⟩ ∧ (f.synced = true → x = f.data)

/-! ## The operations -/

section Files
variable (d : Disk N D)

def setFile (i : Nat) (f : File D) : Disk N D where
  entries := d.entries
  past := d.past
  files := Function.update d.files i (some f)
  sound := by
    intro n j hj
    by_cases hji : j = i
    · subst hji; simp
    · rw [Function.update_of_ne hji]
      exact d.sound n j hj

/-- A change of the data, which is not durable at first. -/
def write (i : Nat) (f : D → D) : Disk N D :=
  match d.files i with
  | some x => d.setFile i ⟨f x.data, false⟩
  | none => d

/-- `fsync` of a file. -/
def sync (i : Nat) : Disk N D :=
  match d.files i with
  | some x => d.setFile i ⟨x.data, true⟩
  | none => d

/-- `fsync` of the directory. -/
def syncDir : Disk N D where
  entries := d.entries
  past _ := []
  files := d.files
  sound n i hi := d.sound n i (.inl (hi.resolve_right List.not_mem_nil))

variable {d} {n : N} {i : Nat} {f : D → D}

@[simp] theorem entries_write : (d.write i f).entries = d.entries := by
  unfold write; split <;> rfl

@[simp] theorem past_write : (d.write i f).past = d.past := by
  unfold write; split <;> rfl

theorem files_write {y : File D} (h : d.files i = some y) :
    (d.write i f).files = Function.update d.files i (some ⟨f y.data, false⟩) := by
  simp only [write, h, setFile]

theorem files_write_of_ne {j : Nat} (h : j ≠ i) : (d.write i f).files j = d.files j := by
  unfold write
  split
  · exact Function.update_of_ne h _ _
  · rfl

theorem files_write_eq_none {j : Nat} : (d.write i f).files j = none ↔ d.files j = none := by
  by_cases hj : j = i
  · subst hj
    cases hx : d.files j with
    | none => simp [write, hx]
    | some x => simp [files_write hx]
  · rw [files_write_of_ne hj]

@[simp] theorem entries_sync : (d.sync i).entries = d.entries := by
  unfold sync; split <;> rfl

@[simp] theorem past_sync : (d.sync i).past = d.past := by
  unfold sync; split <;> rfl

theorem files_sync {y : File D} (h : d.files i = some y) :
    (d.sync i).files = Function.update d.files i (some ⟨y.data, true⟩) := by
  simp only [sync, h, setFile]

theorem files_sync_of_ne {j : Nat} (h : j ≠ i) : (d.sync i).files j = d.files j := by
  unfold sync
  split
  · exact Function.update_of_ne h _ _
  · rfl

theorem files_sync_eq_none {j : Nat} : (d.sync i).files j = none ↔ d.files j = none := by
  by_cases hj : j = i
  · subst hj
    cases hx : d.files j with
    | none => simp [sync, hx]
    | some x => simp [files_sync hx]
  · rw [files_sync_of_ne hj]

@[simp] theorem entries_syncDir : d.syncDir.entries = d.entries := rfl

@[simp] theorem files_syncDir : d.syncDir.files = d.files := rfl

@[simp] theorem past_syncDir : d.syncDir.past n = [] := rfl

end Files

section Entries
variable [DecidableEq N] (d : Disk N D)

def setEntry (n : N) (v : Option Nat) (hv : ∀ i, v = some i → d.files i ≠ none) : Disk N D where
  entries := Function.update d.entries n v
  past := Function.update d.past n (d.entries n :: d.past n)
  files := d.files
  sound := by
    intro m i hm
    by_cases hmn : m = n
    · subst hmn
      simp only [Function.update_self, List.mem_cons] at hm
      rcases hm with hm | hm | hm
      · exact hv i hm
      · exact d.sound m i (.inl hm.symm)
      · exact d.sound m i (.inr hm)
    · simp only [Function.update_of_ne hmn] at hm
      exact d.sound m i hm

/-- A new file. -/
def create (n : N) (i : Nat) (x : D) : Disk N D :=
  (d.setFile i ⟨x, false⟩).setEntry n (some i) fun j hj => by
    cases hj
    simp [setFile]

def remove (n : N) : Disk N D := d.setEntry n none nofun

def rename (a b : N) : Disk N D :=
  (d.setEntry b (d.entries a) fun i hi => d.sound a i (.inl hi)).remove a

variable {d} {a b n : N} {i : Nat} {x : D}

@[simp] theorem entries_create : (d.create n i x).entries = Function.update d.entries n (some i) :=
  rfl

@[simp] theorem files_create :
    (d.create n i x).files = Function.update d.files i (some ⟨x, false⟩) := rfl

@[simp] theorem past_create :
    (d.create n i x).past = Function.update d.past n (d.entries n :: d.past n) := rfl

@[simp] theorem entries_remove : (d.remove n).entries = Function.update d.entries n none := rfl

@[simp] theorem files_remove : (d.remove n).files = d.files := rfl

@[simp] theorem past_remove :
    (d.remove n).past = Function.update d.past n (d.entries n :: d.past n) := rfl

@[simp] theorem entries_rename : (d.rename a b).entries =
    Function.update (Function.update d.entries b (d.entries a)) a none := rfl

@[simp] theorem files_rename : (d.rename a b).files = d.files := rfl

theorem past_rename (hab : b ≠ a) : (d.rename a b).past b = d.entries b :: d.past b := by
  simp [rename, remove, setEntry, hab]

end Entries

variable {d d' : Disk N D} {n : N} {i : Nat} {x : D}

theorem lookup_eq_none : d.lookup n = none ↔ d.entries n = none := by
  unfold lookup
  cases hi : d.entries n with
  | none => simp
  | some i => simp [d.sound n i (.inl hi)]

theorem lookup_of_file {y : File D} (he : d.entries n = some i) (hf : d.files i = some y) :
    d.lookup n = some y.data := by
  simp [lookup, he, hf]

theorem lookup_congr (he : d'.entries n = d.entries n)
    (hf : ∀ i, d.entries n = some i → d'.files i = d.files i) : d'.lookup n = d.lookup n := by
  unfold lookup
  rw [he]
  cases hi : d.entries n with
  | none => rfl
  | some i => simp [hf i hi]

/-! ## Crashes -/

/-- A synced file keeps its data. -/
theorem Crash.lookup_synced (h : Crash d d') (he : d'.entries n = some i)
    (hf : d.files i = some ⟨x, true⟩) : d'.lookup n = some x := by
  obtain ⟨y, hy, hdata⟩ := h.files i _ hf
  rw [lookup_of_file he hy, hdata rfl]

theorem getD_mem_cons {α : Type} (a : α) (l : List α) (i : Nat) : (a :: l).getD i a ∈ a :: l := by
  rw [List.getD_eq_getElem?_getD]
  cases hp : (a :: l)[i]? with
  | none => exact List.mem_cons_self
  | some v => exact List.mem_of_getElem? hp

/-- The crash that picks the `pick n`-th of what the entry `n` may be, and leaves
`junk i` in the file `i` if it was not synced. -/
def crashed (d : Disk N D) (pick : N → Nat) (junk : Nat → D) : Disk N D where
  entries n := (d.entries n :: d.past n).getD (pick n) (d.entries n)
  past _ := []
  files i := (d.files i).map fun f => ⟨if f.synced then f.data else junk i, true⟩
  sound := by
    intro n i hi
    have hmem := getD_mem_cons (d.entries n) (d.past n) (pick n)
    rw [hi.resolve_right List.not_mem_nil] at hmem
    have hold := d.sound n i ((List.mem_cons.mp hmem).imp Eq.symm id)
    simpa using hold

theorem crash_crashed (d : Disk N D) (pick : N → Nat) (junk : Nat → D) :
    Crash d (d.crashed pick junk) where
  entries n := List.mem_cons.mp (getD_mem_cons (d.entries n) (d.past n) (pick n))
  past _ := rfl
  files i f hf := by
    refine ⟨if f.synced then f.data else junk i, by simp [crashed, hf], ?_⟩
    intro hs
    rw [if_pos hs]

/-- What a read of the name gives is durable. -/
structure Durable (d : Disk N D) (n : N) : Prop where
  past : d.past n = []
  synced : ∀ i f, d.entries n = some i → d.files i = some f → f.synced = true

theorem Crash.lookup_durable (h : Crash d d') (hd : d.Durable n) : d'.lookup n = d.lookup n := by
  have he : d'.entries n = d.entries n := by
    refine (h.entries n).resolve_right ?_
    rw [hd.past]
    exact List.not_mem_nil
  cases hi : d.entries n with
  | none =>
    rw [hi] at he
    rw [lookup_eq_none.mpr he, lookup_eq_none.mpr hi]
  | some i =>
    obtain ⟨f, hf⟩ := Option.ne_none_iff_exists'.mp (d.sound n i (.inl hi))
    obtain ⟨x, hx, hdata⟩ := h.files i f hf
    rw [lookup_of_file (he.trans hi) hx, lookup_of_file hi hf, hdata (hd.synced i f hi hf)]

/-- Where the files of an earlier state are as they were, an entry of that state
comes out of a crash as it could have done then. -/
theorem Crash.earlier [DecidableEq N] {d₀ : Disk N D} (h : Crash d d')
    (hf : ∀ i f, d₀.files i = some f → d.files i = some f)
    (he : d'.entries n = d₀.entries n ∨ d'.entries n ∈ d₀.past n) :
    ∃ d₁, Crash d₀ d₁ ∧ d'.lookup n = d₁.lookup n := by
  have hentries : ∀ m, Function.update d₀.entries n (d'.entries n) m = d₀.entries m ∨
      Function.update d₀.entries n (d'.entries n) m ∈ d₀.past m := by
    intro m
    by_cases hm : m = n
    · subst hm; simpa using he
    · left; simp [hm]
  have hfiles : ∀ i f, d₀.files i = some f →
      ∃ x, d'.files i = some ⟨x, true⟩ ∧ (f.synced = true → x = f.data) :=
    fun i f hi => h.files i f (hf i f hi)
  refine ⟨⟨Function.update d₀.entries n (d'.entries n), fun _ => [], d'.files, ?_⟩,
    ⟨hentries, fun _ => rfl, hfiles⟩, ?_⟩
  · intro m i hi
    have hi := hi.resolve_right List.not_mem_nil
    have hold : d₀.files i ≠ none := by
      refine d₀.sound m i ?_
      rw [← hi]
      exact (hentries m).imp Eq.symm id
    obtain ⟨f, hf₀⟩ := Option.ne_none_iff_exists'.mp hold
    obtain ⟨x, hx, -⟩ := hfiles i f hf₀
    simp [hx]
  · simp [lookup]

end Disk
end WorkspaceProxy.Conc
