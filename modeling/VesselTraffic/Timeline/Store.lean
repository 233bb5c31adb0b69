import VesselTraffic.Timeline.Query

/-!
# Stores

A store is how the samples of a vessel are kept: a dictionary gives the sample of a time, and an index lists the times in ascending
order. The place of a time in the index is found by halving; a time later than the last goes to the end at once. What is asked for by
a time of the index is looked up in the dictionary, and a time that is not there is a fault. Samples leave a store only by a cutoff;
after each insertion the pruning of the store says which cutoffs to make.
-/

namespace VesselTraffic

/-- Why a store does not answer. A time is lost if the index lists it and the dictionary does not have it. -/
inductive StoreFault where
  | lost (time : Int)
  | query (fault : QueryFault)
deriving DecidableEq, Repr

namespace StoreFault

/-- The category of a fault of a store. -/
def category : StoreFault → Category
  | lost _ => .missingKey
  | query e => e.category

/-- The wording of a fault of a store. -/
def message : StoreFault → Except NumberFault Text
  | lost t => Number.writeInteger t
  | query e => e.message

end StoreFault

namespace TimeIndex

/-- The place of a time in an index between two places, by halving what is between them. -/
def bisect (times : Array Int) (time : Int) (lo hi : Nat) (h : hi ≤ times.size) : Nat :=
  if hlt : lo < hi then
    let mid := (lo + hi) / 2
    have hmid : mid < times.size := by omega
    if times[mid] < time then bisect times time (mid + 1) hi h else bisect times time lo mid (by omega)
  else lo
termination_by hi - lo
decreasing_by all_goals omega

/-- The place of a time in an index: that of the first time that is not before it. -/
def placeOf (times : Array Int) (time : Int) : Nat := bisect times time 0 times.size (Nat.le_refl _)

/-- Halving stays between the two places. -/
theorem bisect_le {times : Array Int} {time : Int} {lo hi : Nat} (h : hi ≤ times.size) (hle : lo ≤ hi) :
    bisect times time lo hi h ≤ hi := by
  fun_induction bisect times time lo hi h with
  | case1 lo hi h hlt mid hmid hbefore ih => exact ih (by omega)
  | case2 lo hi h hlt mid hmid hnot ih => exact Nat.le_trans (ih (by omega)) (by omega)
  | case3 lo hi h hnot => exact hle

/-- The place of a time is one of the index or its end. -/
theorem placeOf_le (times : Array Int) (time : Int) : placeOf times time ≤ times.size := bisect_le _ (Nat.zero_le _)

/-- The index with a new time at its place. -/
def insertAt (times : Array Int) (time : Int) : Array Int := times.insertIdx (placeOf times time) time (placeOf_le times time)

/-- The index with a new time; one later than the last goes to the end at once. -/
def add (times : Array Int) (time : Int) : Array Int :=
  match times.back? with
  | none => times.push time
  | some last => if last < time then times.push time else insertAt times time

end TimeIndex

/-- The times of samples in ascending order beside the samples by their times. -/
structure Store (α : Type) where
  times : Array Int
  dictionary : List (Int × Sample α)
deriving DecidableEq, Repr

namespace Store

variable {α : Type}

/-- The store without samples. -/
def empty : Store α := ⟨#[], []⟩

/-- The number of samples. -/
def size (s : Store α) : Nat := s.times.size

/-- The sample at a time. -/
def find? (s : Store α) (time : Int) : Option (Sample α) := s.dictionary.lookup time

/-- A time with a sample. -/
def contains (s : Store α) (time : Int) : Bool := (s.find? time).isSome

/-- The sample at a time that the index lists. -/
def sampleAt (s : Store α) (time : Int) : Except StoreFault (Sample α) :=
  match s.find? time with
  | some x => .ok x
  | none => .error (.lost time)

/-- The samples at the times of the index, in its order. -/
def samples (s : Store α) : Except StoreFault (List (Sample α)) := s.times.toList.mapM s.sampleAt

/-- The earliest sample. -/
def first (s : Store α) : Except StoreFault (Option (Sample α)) :=
  match s.times[0]? with
  | none => .ok none
  | some time => (s.sampleAt time).map some

/-- The latest sample. -/
def last (s : Store α) : Except StoreFault (Option (Sample α)) :=
  match s.times.back? with
  | none => .ok none
  | some time => (s.sampleAt time).map some

/-- The store with a sample at its time, in place of the one there. -/
def put (s : Store α) (x : Sample α) : Store α :=
  { times := if s.contains x.timestamp then s.times else TimeIndex.add s.times x.timestamp
    dictionary := (x.timestamp, x) :: s.dictionary.filter fun e => e.1 != x.timestamp }

/-- A dictionary without the sample at a time that the index lists. -/
def remove (dictionary : List (Int × Sample α)) (time : Int) : Except StoreFault (List (Int × Sample α)) :=
  if (dictionary.lookup time).isSome then .ok (dictionary.filter fun e => e.1 != time) else .error (.lost time)

/-- The number of samples that are older than a time, and the store without them. -/
def discardBefore (s : Store α) (time : Int) : Except StoreFault (Nat × Store α) :=
  let cut := TimeIndex.placeOf s.times time
  ((s.times.toList.take cut).foldlM remove s.dictionary).map fun dictionary => (cut, ⟨s.times.drop cut, dictionary⟩)

/-- The store after a cutoff. -/
def cut (s : Store α) (time : Int) : Except StoreFault (Store α) := (s.discardBefore time).map Prod.snd

/-- The sample at a time, stored or estimated. -/
def query [Navigation α] (s : Store α) (time : Int) : Except StoreFault (Sample α) :=
  match s.find? time with
  | some x => .ok x
  | none =>
    let place := TimeIndex.placeOf s.times time
    have hle : place ≤ s.times.size := TimeIndex.placeOf_le s.times time
    if hfirst : place = 0 then .error (.query (.noneBefore time))
    else
      (s.sampleAt s.times[place - 1]).bind fun a =>
        if hlast : place < s.times.size then
          (s.sampleAt s.times[place]).bind fun b =>
            (Timeline.interpolated a b time).mapError fun e => .query (.number e)
        else (Timeline.extrapolated a time).mapError fun e => .query (.number e)

end Store

/-- The cutoffs to make after each insertion, in order, as they are read off the store. -/
structure Pruning (α : Type) where
  cutoffs : Store α → Except StoreFault (List Int)

namespace Pruning

variable {α : Type}

/-- Keeps every sample. -/
def keepAll : Pruning α := ⟨fun _ => .ok []⟩

/-- Keeps the samples of a window up to the latest one. -/
def window (ms : Int) : Pruning α :=
  ⟨fun s => s.last.map fun latest =>
    match latest with
    | none => []
    | some x => [x.timestamp - ms]⟩

/-- Keeps at most a number of samples, the latest ones. -/
def latest (count : Nat) : Pruning α :=
  ⟨fun s => s.samples.map fun samples =>
    ((samples.map Sample.timestamp).drop (samples.length - count)).take (if count < s.size then 1 else 0)⟩

end Pruning

namespace Store

variable {α : Type}

/-- The store after the cutoffs of a pruning. -/
def prune (p : Pruning α) (s : Store α) : Except StoreFault (Store α) :=
  (p.cutoffs s).bind fun cutoffs => cutoffs.foldlM cut s

/-- The store with a sample at its time, and after the cutoffs of its pruning. -/
def insert (p : Pruning α) (s : Store α) (x : Sample α) : Except StoreFault (Store α) := (s.put x).prune p

/-- A store as it is shown. -/
def toText (s : Store α) : Text := "<Timeline(samples=".toList ++ Text.ofNat s.size ++ ")>".toList

end Store
end VesselTraffic
