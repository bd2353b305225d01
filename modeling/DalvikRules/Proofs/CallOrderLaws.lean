import DalvikRules.Proofs.CallOrdering
import Mathlib.Data.Nat.Basic
import Mathlib.Order.Monotone.Basic

/-!
# Laws of call order

The two readings of call order are conditions on pairs of call sites. What follows from that: the
order in which call sites are listed is of no importance, offsets matter only through their order,
and the strict reading is itself a strict order on the names. The same answers are read off a
sorted table, whether or not tables with fewer than two entries are refused beforehand.
-/

namespace DalvikRules

variable {mode : SequenceMode} {sites others : List CallSite} {first second third : String}

/-- The order in which call sites are listed is of no importance. -/
theorem callsInOrder_perm (h : sites.Perm others) :
    callsInOrder mode sites first second = callsInOrder mode others first second :=
  callsInOrder_congr fun _ _ => h.mem_iff

/-- A call site with its offset counted anew. -/
def CallSite.renumber (number : Nat → Nat) (site : CallSite) : CallSite :=
  { site with position := number site.position }

/-- The offsets of call sites. -/
def offsetSet (sites : List CallSite) : Set Nat :=
  {position | ∃ site ∈ sites, site.position = position}

/-- Offsets matter only through their order. -/
theorem callsInOrder_renumber {number : Nat → Nat} (h : StrictMonoOn number (offsetSet sites)) :
    callsInOrder mode (sites.map (CallSite.renumber number)) first second =
      callsInOrder mode sites first second := by
  have hlt {site next : CallSite} (hsite : site ∈ sites) (hnext : next ∈ sites) :
      number site.position < number next.position ↔ site.position < next.position :=
    h.lt_iff_lt ⟨site, hsite, rfl⟩ ⟨next, hnext, rfl⟩
  rw [Bool.eq_iff_iff]
  cases mode with
  | loose =>
    rw [callsInOrder_loose_iff_sites, callsInOrder_loose_iff_sites]
    simp only [List.mem_map, exists_exists_and_eq_and]
    constructor
    · rintro ⟨site, hsite, next, hnext, hname, hname', hpos⟩
      exact ⟨site, hsite, next, hnext, hname, hname', (hlt hsite hnext).mp hpos⟩
    · rintro ⟨site, hsite, next, hnext, hname, hname', hpos⟩
      exact ⟨site, hsite, next, hnext, hname, hname', (hlt hsite hnext).mpr hpos⟩
  | strict =>
    rw [callsInOrder_strict_iff_sites, callsInOrder_strict_iff_sites]
    simp only [List.mem_map, exists_exists_and_eq_and, forall_exists_index, and_imp,
      forall_apply_eq_imp_iff₂]
    refine and_congr_right fun _ => and_congr_right fun _ => ?_
    constructor
    · intro hall site hsite next hnext hname hname'
      exact (hlt hsite hnext).mp (hall site hsite next hnext hname hname')
    · intro hall site hsite next hnext hname hname'
      exact (hlt hsite hnext).mpr (hall site hsite next hnext hname hname')

/-- No name strictly precedes itself. -/
theorem callsInOrder_strict_irrefl (sites : List CallSite) (name : String) :
    callsInOrder .strict sites name name = false := by
  rw [Bool.eq_false_iff]
  intro horder
  obtain ⟨⟨site, hsite, hname⟩, -, hall⟩ := callsInOrder_strict_iff_sites.mp horder
  exact Nat.lt_irrefl _ (hall site hsite site hsite hname hname)

/-- A call of the second name lies between any call of the first and any call of the third. -/
theorem callsInOrder_strict_trans (hfirst : callsInOrder .strict sites first second = true)
    (hsecond : callsInOrder .strict sites second third = true) :
    callsInOrder .strict sites first third = true := by
  obtain ⟨hoccurs, ⟨between, hbetween, hname⟩, hbefore⟩ := callsInOrder_strict_iff_sites.mp hfirst
  obtain ⟨-, hoccurs', hafter⟩ := callsInOrder_strict_iff_sites.mp hsecond
  refine callsInOrder_strict_iff_sites.mpr ⟨hoccurs, hoccurs', ?_⟩
  intro site hsite next hnext hsiteName hnextName
  have hlt := hbefore site hsite between hbetween hsiteName hname
  have hlt' := hafter between hbetween next hnext hname hnextName
  omega

/-- In the strict reading no two names are in order both ways. -/
theorem callsInOrder_strict_asymm (h : callsInOrder .strict sites first second = true) :
    callsInOrder .strict sites second first = false := by
  rw [Bool.eq_false_iff]
  intro hback
  have hself := callsInOrder_strict_trans h hback
  rw [callsInOrder_strict_irrefl] at hself
  cases hself

/-- Call order is decided by comparing call sites of the two names. Therefore neither the listing of
the call sites nor the numbers that count their offsets are of any importance, a sorted table shows
the same order with and without a check of its size, and the strict reading is a strict order on
the names. -/
theorem callsInOrder_compares_sites (sites : List CallSite) :
    (∀ first second, callsInOrder .loose sites first second = true ↔
      ∃ site ∈ sites, ∃ next ∈ sites, site.callee.name = first ∧ next.callee.name = second ∧
        site.position < next.position) ∧
    (∀ first second, callsInOrder .strict sites first second = true ↔
      (∃ site ∈ sites, site.callee.name = first) ∧ (∃ site ∈ sites, site.callee.name = second) ∧
        ∀ site ∈ sites, ∀ next ∈ sites, site.callee.name = first → next.callee.name = second →
          site.position < next.position) ∧
    (∀ mode others first second, sites.Perm others →
      callsInOrder mode sites first second = callsInOrder mode others first second) ∧
    (∀ mode number first second, StrictMonoOn number (offsetSet sites) →
      callsInOrder mode (sites.map (CallSite.renumber number)) first second =
        callsInOrder mode sites first second) ∧
    (∀ mode first second,
      callsInOrder mode sites first second =
          tableOrder mode (callTable sites first second) first second ∧
        ((callTable sites first second).length < 2 →
          tableOrder mode (callTable sites first second) first second = false)) ∧
    (∀ name, callsInOrder .strict sites name name = false) ∧
    (∀ first second third, callsInOrder .strict sites first second = true →
      callsInOrder .strict sites second third = true →
        callsInOrder .strict sites first third = true) := by
  refine ⟨?loose, ?strict, ?perm, ?renumber, ?table, ?irrefl, ?trans⟩
  case loose => exact fun _ _ => callsInOrder_loose_iff_sites
  case strict => exact fun _ _ => callsInOrder_strict_iff_sites
  case perm => exact fun _ _ _ _ h => callsInOrder_perm h
  case renumber => exact fun _ _ _ _ h => callsInOrder_renumber h
  case table =>
    intro mode first second
    exact ⟨callsInOrder_eq_tableOrder mode sites first second, tableOrder_of_few⟩
  case irrefl => exact callsInOrder_strict_irrefl sites
  case trans => exact fun _ _ _ h h' => callsInOrder_strict_trans h h'

end DalvikRules
