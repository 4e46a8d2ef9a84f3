import Mathlib.Data.Fintype.Card
import Mathlib.Tactic.Common
import VedDb.Lib.Lookups

/-!
# Versioned maps

A finite map whose values carry a version: 1 when a key is first put, kept by later puts, one more
(modulo 2^64) after each compare-and-swap that finds the version it expects.
-/

namespace VedDb

structure Versioned (ν : Type) where
  value : ν
  version : UInt64
deriving DecidableEq

abbrev VersionedMap (κ ν : Type) [Ord κ] : Type := Std.ExtTreeMap κ (Versioned ν)

inductive CasError where
  | notFound
  | versionMismatch
deriving DecidableEq

namespace VersionedMap

variable {κ ν : Type} [Ord κ] [Std.TransOrd κ]

def get (map : VersionedMap κ ν) (key : κ) : Option ν := map[key]?.map Versioned.value

def put (map : VersionedMap κ ν) (key : κ) (value : ν) : VersionedMap κ ν :=
  map.insert key { value := value, version := (map[key]?.map Versioned.version).getD 1 }

/-- The new version, or why the map stays as it is. -/
def cas (map : VersionedMap κ ν) (key : κ) (expected : UInt64) (value : ν) :
    Except CasError UInt64 × VersionedMap κ ν :=
  match map[key]? with
  | none => (.error .notFound, map)
  | some current =>
    if current.version ≠ expected then (.error .versionMismatch, map)
    else
      (.ok (current.version + 1),
        map.insert key { value := value, version := current.version + 1 })

variable {map : VersionedMap κ ν} {key : κ} {value : ν} {expected : UInt64}

theorem put_of_none (h : map[key]? = none) :
    map.put key value = map.insert key { value := value, version := 1 } := by
  rw [put, h]
  rfl

theorem put_of_some {current : Versioned ν} (h : map[key]? = some current) :
    map.put key value = map.insert key { current with value := value } := by
  rw [put, h]
  rfl

theorem cas_of_none (h : map[key]? = none) :
    map.cas key expected value = (.error .notFound, map) := by
  rw [cas, h]

theorem cas_of_ne {current : Versioned ν} (h : map[key]? = some current)
    (hne : current.version ≠ expected) :
    map.cas key expected value = (.error .versionMismatch, map) := by
  rw [cas, h]
  exact if_pos hne

theorem cas_of_eq {current : Versioned ν} (h : map[key]? = some current)
    (heq : current.version = expected) :
    map.cas key expected value =
      (.ok (current.version + 1),
        map.insert key { value := value, version := current.version + 1 }) := by
  rw [cas, h]
  exact if_neg (not_not.mpr heq)

theorem size_le_card [Std.LawfulEqOrd κ] {ι : Type} [Fintype ι] (place : κ → ι)
    (h : ∀ {key key'}, key ∈ map → key' ∈ map → place key = place key' → key = key') :
    map.size ≤ Fintype.card ι := by
  have hnodup : (map.keys.map place).Nodup := by
    apply List.Nodup.map_on _ map.nodup_keys
    intro key hkey key' hkey' heq
    exact h (Std.ExtTreeMap.mem_keys.mp hkey) (Std.ExtTreeMap.mem_keys.mp hkey') heq
  have hlength := hnodup.length_le_card
  rwa [List.length_map, Std.ExtTreeMap.length_keys] at hlength

end VersionedMap

end VedDb
