import Mathlib.Data.Set.Function
import Marko.PymarkoText

/-! The `Ascii` codec of `pymarko/transport.py`: fields joined with colons and encoded. -/
namespace Pymarko

open Datagram

/-- `s.split(sep)` for a separator of one character. -/
def split (s : String) (sep : Char) : List String := (s.toList.splitOn sep).map String.ofList

namespace Ascii

def dumps (data : List String) : Bytes := encode (":".intercalate data)

def loads (msg : Bytes) : Except PyError (List String) := do
  let s ← decodeUtf8 msg
  pure (split s ':')

/-- `Transport.pack` and `Transport.unpack`, inherited. -/
def pack (data : List String) : Bytes := dumps data

def unpack (data : Bytes) : Except PyError (List String) := loads data

/-- The lists that a joined string can be split into again. -/
structure Separable (xs : List String) : Prop where
  ne_nil : xs ≠ []
  no_colon : ∀ s ∈ xs, ':' ∉ s.toList

def Valid (m : Bytes) : Prop := ∃ s, decodeUtf8 m = .ok s

end Ascii

section Split

theorem split_intercalate {xs : List String} (hne : xs ≠ []) (hcolon : ∀ s ∈ xs, ':' ∉ s.toList) :
    split (":".intercalate xs) ':' = xs := by
  have hpieces : ∀ l ∈ xs.map String.toList, ':' ∉ l := by
    intro l hl
    obtain ⟨s, hs, rfl⟩ := List.mem_map.mp hl
    exact hcolon s hs
  -- joining strings is joining their lists of characters
  have hlist : (":".intercalate xs).toList = [':'].intercalate (xs.map String.toList) :=
    String.toList_intercalate
  rw [split, hlist, List.splitOn_intercalate ':' hpieces (mt List.map_eq_nil_iff.mp hne),
    List.map_map]
  have hround : String.ofList ∘ String.toList = id := by
    ext s
    simp
  rw [hround, List.map_id]

theorem intercalate_split (s : String) : ":".intercalate (split s ':') = s := by
  have hround : String.toList ∘ String.ofList = id := by
    ext l
    simp
  apply String.toList_injective
  rw [String.toList_intercalate, split, List.map_map, hround, List.map_id]
  exact List.intercalate_splitOn ':'

theorem split_ne_nil (s : String) (sep : Char) : split s sep ≠ [] :=
  mt List.map_eq_nil_iff.mp (List.splitOn_ne_nil sep s.toList)

theorem notMem_of_mem_splitOn {l piece : List Char} {sep : Char} (hp : piece ∈ l.splitOn sep) :
    sep ∉ piece := by
  -- on the characters; `piece` may be any of the pieces
  induction l generalizing piece with
  | nil =>
    rw [List.splitOn_nil, List.mem_singleton] at hp
    rw [hp]
    exact List.not_mem_nil
  | cons c l ih =>
    rw [List.splitOn_cons_eq_if_modifyHead] at hp
    split_ifs at hp with hc
    · -- the separator starts a new, empty piece
      rcases List.mem_cons.mp hp with rfl | hp
      · exact List.not_mem_nil
      · exact ih hp
    · -- another character goes to the first piece of the rest
      cases hrest : l.splitOn sep with
      | nil => exact absurd hrest (List.splitOn_ne_nil sep l)
      | cons first others =>
        rw [hrest, List.modifyHead_cons] at hp
        rw [hrest] at ih
        rcases List.mem_cons.mp hp with rfl | hp
        · have hfirst : sep ∉ first := ih List.mem_cons_self
          have hne : sep ≠ c := fun h => hc (by simp [h])
          simp [hfirst, hne]
        · exact ih (List.mem_cons_of_mem first hp)

end Split

namespace Ascii

theorem separable_split (s : String) : Separable (split s ':') where
  ne_nil := split_ne_nil s ':'
  no_colon piece hp := by
    obtain ⟨l, hl, rfl⟩ := List.mem_map.mp hp
    rw [String.toList_ofList]
    exact notMem_of_mem_splitOn hl

/-- Loading succeeds on what was dumped from a separable list, and on nothing else. -/
theorem loads_eq_ok_iff {m : Bytes} {xs : List String} :
    loads m = .ok xs ↔ Separable xs ∧ m = dumps xs := by
  constructor
  -- what was split separates, and joining it gives the decoded string back
  · intro h
    cases hs : decodeUtf8 m with
    | error e =>
      rw [loads, hs] at h
      cases h
    | ok s =>
      rw [loads, hs] at h
      obtain rfl := Except.ok.inj h
      refine ⟨separable_split s, ?_⟩
      rw [dumps, intercalate_split]
      exact decodeUtf8_eq_ok_iff.mp hs
  · rintro ⟨hsep, rfl⟩
    have hs : decodeUtf8 (dumps xs) = .ok (":".intercalate xs) := decodeUtf8_eq_ok_iff.mpr rfl
    rw [loads, hs]
    exact congrArg Except.ok (split_intercalate hsep.ne_nil hsep.no_colon)

theorem valid_iff {m : Bytes} : Valid m ↔ ∃ xs, loads m = .ok xs := by
  constructor
  · rintro ⟨s, hs⟩
    refine ⟨split s ':', ?_⟩
    rw [loads, hs]
    rfl
  · rintro ⟨xs, hxs⟩
    obtain ⟨-, rfl⟩ := loads_eq_ok_iff.mp hxs
    exact ⟨_, decodeUtf8_eq_ok_iff.mpr rfl⟩

/-- Dumping and loading are inverse bijections between the non-empty lists of fields without
a colon and the byte strings that are valid UTF-8. Outside them nothing survives: a list is
restored only if it is separable, and every byte string that loads is what dumping gives. -/
theorem dumps_loads_inverse :
    (∀ xs, loads (dumps xs) = .ok xs ↔ xs ≠ [] ∧ ∀ s ∈ xs, ':' ∉ s.toList) ∧
      (∀ m xs, loads m = .ok xs → dumps xs = m) ∧
      (∀ m m' xs, loads m = .ok xs → loads m' = .ok xs → m = m') ∧
      (∀ m, Valid m ↔ ∃ xs, loads m = .ok xs) ∧
      Set.BijOn dumps {xs | Separable xs} {m | Valid m} := by
  refine ⟨?_, ?_, ?_, fun m => valid_iff, ?_, ?_, ?_⟩
  · intro xs
    rw [loads_eq_ok_iff, and_iff_left rfl]
    exact ⟨fun h => ⟨h.ne_nil, h.no_colon⟩, fun h => ⟨h.1, h.2⟩⟩
  · intro m xs h
    exact (loads_eq_ok_iff.mp h).2.symm
  · intro m m' xs h h'
    exact (loads_eq_ok_iff.mp h).2.trans (loads_eq_ok_iff.mp h').2.symm
  · intro xs hxs
    exact valid_iff.mpr ⟨xs, loads_eq_ok_iff.mpr ⟨hxs, rfl⟩⟩
  -- injective, as loading undoes dumping
  · intro xs hxs ys hys heq
    have hx : loads (dumps xs) = .ok xs := loads_eq_ok_iff.mpr ⟨hxs, rfl⟩
    have hy : loads (dumps ys) = .ok ys := loads_eq_ok_iff.mpr ⟨hys, rfl⟩
    rw [heq, hy] at hx
    exact (Except.ok.inj hx).symm
  · intro m hm
    obtain ⟨xs, hxs⟩ := valid_iff.mp hm
    obtain ⟨hsep, rfl⟩ := loads_eq_ok_iff.mp hxs
    exact ⟨xs, hsep, rfl⟩

end Ascii

end Pymarko
