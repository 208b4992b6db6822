-- A dictionary that was written sorted by its keys and read back. It has the
-- same entries in another order.
import Mathlib.Data.List.Sort
import Mathlib.Data.String.Basic
import BidEvaluation.Lib.Dict

namespace dict_lib

variable {ν μ : Type}

namespace Dict

/-- The entries in the order of their keys, each value after its own round trip. -/
def reloaded (f : ν → ν) (d : Dict String ν) : Dict String ν where
  entries := (d.entries.map fun e => (e.1, f e.2)).insertionSort fun a b => a.1 ≤ b.1
  keys_nodup := by
    have hperm := (List.perm_insertionSort (fun a b : String × ν => a.1 ≤ b.1)
      (d.entries.map fun e => (e.1, f e.2))).map Prod.fst
    rw [hperm.nodup_iff, List.map_map]
    exact d.keys_nodup

theorem mem_reloaded (f : ν → ν) (d : Dict String ν) (k : String) (v : ν) :
    (k, v) ∈ (d.reloaded f).entries ↔ ∃ u, (k, u) ∈ d.entries ∧ f u = v := by
  have hperm := List.perm_insertionSort (fun a b : String × ν => a.1 ≤ b.1)
    (d.entries.map fun e => (e.1, f e.2))
  refine hperm.mem_iff.trans (List.mem_map.trans ⟨?_, ?_⟩)
  · rintro ⟨⟨k', u⟩, hu, heq⟩
    cases heq
    exact ⟨u, hu, rfl⟩
  · rintro ⟨u, hu, rfl⟩
    exact ⟨(k, u), hu, rfl⟩

theorem get?_reloaded (f : ν → ν) (d : Dict String ν) (k : String) :
    (d.reloaded f).get? k = (d.get? k).map f := by
  ext v
  rw [← mem_entries_iff, mem_reloaded, Option.map_eq_some_iff]
  simp only [mem_entries_iff]

end Dict

namespace Table

variable {key : ν → String}

/-- A round trip keeps the key of a record. -/
def reloaded (f : ν → ν) (hf : ∀ v, key (f v) = key v) (t : Table key) : Table key where
  dict := t.dict.reloaded f
  keyed := by
    intro k v hv
    rw [Dict.get?_reloaded] at hv
    obtain ⟨u, hu, rfl⟩ := Option.map_eq_some_iff.1 hv
    exact (hf u).trans (t.keyed k u hu)

theorem get?_reloaded (f : ν → ν) (hf : ∀ v, key (f v) = key v) (t : Table key) (k : String) :
    (t.reloaded f hf).get? k = (t.get? k).map f := Dict.get?_reloaded f t.dict k

end Table

end dict_lib
