import Mathlib.Data.List.Basic
import Mathlib.Data.List.Nodup

/-!
# Directory trees and their paths

The objects below a directory, and the paths under which a walk comes across them: names are lists
over an alphabet with a separator, and a path is the path of the directory, a separator, and a name.

* `Entries α β`: the entries of a directory; every object carries a `β`.
* `Entries.visits`: the objects below a directory with their paths, each directory before what is in
  it.
* `Entries.WellNamed`: names without separators, and no name twice in a directory.
* `nodup_visits`: a walk comes to every path once.
-/

namespace CloudTiering
namespace Foundations

/-- The entries of a directory. -/
inductive Entries (α β : Type)
  | nil
  | object (name : List α) (b : β) (rest : Entries α β)
  | directory (name : List α) (b : β) (below rest : Entries α β)

namespace Entries

variable {α β : Type}

/-- The names in the directory itself. -/
def names : Entries α β → List (List α)
  | .nil => []
  | .object name _ rest => name :: rest.names
  | .directory name _ _ rest => name :: rest.names

/-- The objects below the directory `root`, with their paths. -/
def visits (sep : α) (root : List α) : Entries α β → List (List α × β)
  | .nil => []
  | .object name b rest => (root ++ sep :: name, b) :: rest.visits sep root
  | .directory name b below rest =>
      (root ++ sep :: name, b) :: (below.visits sep (root ++ sep :: name) ++ rest.visits sep root)

/-- Names have no separator, and no directory has a name twice. -/
def WellNamed (sep : α) : Entries α β → Prop
  | .nil => True
  | .object name _ rest => sep ∉ name ∧ name ∉ rest.names ∧ rest.WellNamed sep
  | .directory name _ below rest =>
      sep ∉ name ∧ name ∉ rest.names ∧ below.WellNamed sep ∧ rest.WellNamed sep

/-- What may stand behind a name in a path. -/
def Behind (sep : α) (suffix : List α) : Prop := suffix = [] ∨ ∃ tail, suffix = sep :: tail

/-- A name is what stands before the first separator. -/
theorem name_inj {sep : α} {m n s t : List α} (hm : sep ∉ m) (hn : sep ∉ n) (hs : Behind sep s)
    (ht : Behind sep t) (h : m ++ s = n ++ t) : m = n := by
  induction m generalizing n with
  | nil =>
    cases n with
    | nil => rfl
    | cons y n =>
      rcases hs with rfl | ⟨tail, rfl⟩
      · exact absurd h.symm (by simp)
      · exact absurd ((List.cons.inj h).1 ▸ List.mem_cons_self) hn
  | cons x m ih =>
    cases n with
    | nil =>
      rcases ht with rfl | ⟨tail, rfl⟩
      · exact absurd h (by simp)
      · exact absurd ((List.cons.inj h).1 ▸ List.mem_cons_self) hm
    | cons y n =>
      obtain ⟨rfl, hrest⟩ := List.cons.inj h
      rw [ih (fun hx => hm (List.mem_cons_of_mem _ hx))
        (fun hy => hn (List.mem_cons_of_mem _ hy)) hrest]

/-- A path below a directory goes through one of the directory's names. -/
theorem path_of_mem_visits {sep : α} {root : List α} {e : Entries α β} {v : List α × β}
    (h : v ∈ e.visits sep root) :
    ∃ name ∈ e.names, ∃ suffix, Behind sep suffix ∧ v.1 = root ++ sep :: (name ++ suffix) := by
  induction e generalizing root with
  | nil => exact absurd h List.not_mem_nil
  | object name b rest ih =>
    rcases List.mem_cons.mp h with rfl | h
    · exact ⟨name, List.mem_cons_self, [], .inl rfl, by rw [List.append_nil]⟩
    · obtain ⟨n, hn, hsuffix⟩ := ih h
      exact ⟨n, List.mem_cons_of_mem _ hn, hsuffix⟩
  | directory name b below rest ihbelow ihrest =>
    rcases List.mem_cons.mp h with rfl | h
    · exact ⟨name, List.mem_cons_self, [], .inl rfl, by rw [List.append_nil]⟩
    · rcases List.mem_append.mp h with h | h
      · obtain ⟨n, -, suffix, -, hv⟩ := ihbelow h
        exact ⟨name, List.mem_cons_self, sep :: (n ++ suffix), .inr ⟨_, rfl⟩, by
          rw [hv, List.append_assoc, List.cons_append]⟩
      · obtain ⟨n, hn, hsuffix⟩ := ihrest h
        exact ⟨n, List.mem_cons_of_mem _ hn, hsuffix⟩

/-- No path below a directory is the directory's own. -/
theorem ne_root_of_mem_visits {sep : α} {root : List α} {e : Entries α β} {v : List α × β}
    (h : v ∈ e.visits sep root) : v.1 ≠ root := by
  obtain ⟨name, -, suffix, -, hv⟩ := path_of_mem_visits h
  intro heq
  have hlen := congrArg List.length (hv.symm.trans heq)
  rw [List.length_append, List.length_cons] at hlen
  omega

/-- The names of a well-named directory have no separator. -/
theorem WellNamed.notMem {sep : α} {e : Entries α β} (h : e.WellNamed sep) {name : List α}
    (hn : name ∈ e.names) : sep ∉ name := by
  induction e with
  | nil => exact absurd hn List.not_mem_nil
  | object n b rest ih =>
    rcases List.mem_cons.mp hn with rfl | hn
    · exact h.1
    · exact ih h.2.2 hn
  | directory n b below rest _ ih =>
    rcases List.mem_cons.mp hn with rfl | hn
    · exact h.1
    · exact ih h.2.2.2 hn

/-- A path through a name is no path of a directory without that name. -/
theorem path_ne_of_mem_visits {sep : α} {root name suffix : List α} {e : Entries α β}
    {v : List α × β}
    (he : e.WellNamed sep) (hname : sep ∉ name) (hnot : name ∉ e.names)
    (hsuffix : Behind sep suffix)
    (h : v ∈ e.visits sep root) : v.1 ≠ root ++ sep :: (name ++ suffix) := by
  obtain ⟨n, hn, s, hs, hv⟩ := path_of_mem_visits h
  intro heq
  have hsame := List.append_cancel_left (hv.symm.trans heq)
  have hnn : n = name := name_inj (he.notMem hn) hname hs hsuffix (List.cons.inj hsame).2
  exact hnot (hnn ▸ hn)

/-- **A walk comes to every path once.** -/
theorem nodup_visits {sep : α} {root : List α} {e : Entries α β} (h : e.WellNamed sep) :
    ((e.visits sep root).map Prod.fst).Nodup := by
  induction e generalizing root with
  | nil => exact List.nodup_nil
  | object name b rest ih =>
    obtain ⟨hname, hnot, hrest⟩ := h
    refine List.nodup_cons.mpr ⟨fun hmem => ?_, ih hrest⟩
    obtain ⟨v, hv, hpath⟩ := List.mem_map.mp hmem
    exact path_ne_of_mem_visits hrest hname hnot (.inl rfl) hv (by rw [hpath, List.append_nil])
  | directory name b below rest ihbelow ihrest =>
    obtain ⟨hname, hnot, hbelow, hrest⟩ := h
    rw [visits, List.map_cons, List.map_append]
    refine List.nodup_cons.mpr ⟨fun hmem => ?_, List.nodup_append.mpr
      ⟨ihbelow hbelow, ihrest hrest, fun p hp q hq heq => ?_⟩⟩
    · rcases List.mem_append.mp hmem with hmem | hmem
      · obtain ⟨v, hv, hpath⟩ := List.mem_map.mp hmem
        exact ne_root_of_mem_visits hv hpath
      · obtain ⟨v, hv, hpath⟩ := List.mem_map.mp hmem
        exact path_ne_of_mem_visits hrest hname hnot (.inl rfl) hv (by rw [hpath, List.append_nil])
    · -- a path below the directory goes through its name
      obtain ⟨v, hv, rfl⟩ := List.mem_map.mp hp
      obtain ⟨u, hu, rfl⟩ := List.mem_map.mp hq
      obtain ⟨n, -, suffix, -, hpath⟩ := path_of_mem_visits hv
      refine path_ne_of_mem_visits hrest hname hnot (.inr ⟨n ++ suffix, rfl⟩) hu ?_
      rw [← heq, hpath, List.append_assoc, List.cons_append]

end Entries

end Foundations
end CloudTiering
