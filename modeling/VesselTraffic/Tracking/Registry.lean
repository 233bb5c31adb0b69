import VesselTraffic.Tracking.Target

/-!
# Registries

A registry gives each MMSI one target and keeps the targets in the order in which they came. A target is never taken out, so the
place of its MMSI, its index, stays what it is.
-/

namespace VesselTraffic

/-- Targets by MMSI, each MMSI once, in the order in which they came. -/
structure Registry (α : Type) where
  entries : List (Int × Target α)
  nodup : (entries.map Prod.fst).Nodup

namespace Registry

variable {α : Type}

/-- The registry without targets. -/
def empty : Registry α := ⟨[], List.nodup_nil⟩

/-- The MMSIs in order. -/
def mmsis (r : Registry α) : List Int := r.entries.map Prod.fst

/-- The targets in order. -/
def targets (r : Registry α) : List (Target α) := r.entries.map Prod.snd

/-- The number of targets. -/
def size (r : Registry α) : Nat := r.entries.length

/-- An MMSI with a target. -/
def contains (r : Registry α) (mmsi : Int) : Bool := r.mmsis.contains mmsi

/-- The index of an MMSI. -/
def indexOf? (r : Registry α) (mmsi : Int) : Option Nat := r.mmsis.findIdx? (· = mmsi)

/-- The target of an MMSI. -/
def find? (r : Registry α) (mmsi : Int) : Option (Target α) := r.entries.lookup mmsi

/-- The registry with a target for an MMSI, an unknown one at the end if there was none. -/
def ensure (r : Registry α) (mmsi : Int) : Registry α :=
  if h : mmsi ∈ r.mmsis then r
  else
    { entries := r.entries ++ [(mmsi, Target.unknown)]
      nodup := by
        rw [List.map_append, List.nodup_append]
        refine ⟨r.nodup, by simp, ?_⟩
        intro a ha b hb e
        rw [List.map_singleton, List.mem_singleton] at hb
        rw [e, hb] at ha
        exact h ha }

/-- An entry with its target replaced if it is that of an MMSI. -/
def replaceIn (mmsi : Int) (t : Target α) (e : Int × Target α) : Int × Target α := if e.1 = mmsi then (e.1, t) else e

/-- Replacing a target keeps the MMSI. -/
theorem fst_replaceIn (mmsi : Int) (t : Target α) (e : Int × Target α) : (replaceIn mmsi t e).1 = e.1 := by
  unfold replaceIn
  split <;> rfl

/-- The registry with the target of an MMSI replaced, if it has one. -/
def replace (r : Registry α) (mmsi : Int) (t : Target α) : Registry α :=
  { entries := r.entries.map (replaceIn mmsi t)
    nodup := by
      have h : Prod.fst ∘ replaceIn mmsi t = Prod.fst := funext (fst_replaceIn mmsi t)
      rw [List.map_map, h]
      exact r.nodup }

end Registry
end VesselTraffic
