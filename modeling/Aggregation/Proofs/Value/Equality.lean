import Aggregation.Proofs.Bag
import Aggregation.Value
import Mathlib.Data.List.Forall2
import Mathlib.Data.List.Perm.Subperm

/-! Equality of values.

A step into a value goes to an item of an array or to the value under a name of a map. Two values
are equal if they look alike from outside, that is are equal leaves, arrays of one length or maps
of the same names, and the same step into both always comes to equal values (`eq_iff`). This looks
the same from both sides, while a comparison of maps goes through the entries of one of them only;
so equality is symmetric, transitive and, off NaN, reflexive by induction along the steps
(`by_parts`). Equal values have equal values at the end of every path (`at?_of_eq`), and what
stands there may be exchanged for an equal value (`replace_eq`) and for no other
(`eq_of_replace_eq`). -/
namespace Aggregation.Value

/-! ### Doubles -/

section Doubles
open Float.Model
variable {a b : UnpackedFloat} {x y z : Float}

theorem compare_finite_iff {s : UnpackedFloat.Sign} {m n : Nat} {e f : Int} {hm : 0 < m}
    {hn : 0 < n} :
    (UnpackedFloat.finite s m e hm).compare (.finite s n f hn) = some .eq ↔ e = f ∧ m = n := by
  have hthen : (UnpackedFloat.finite s m e hm).compare (.finite s n f hn) = some .eq ↔
      (compare e f).then (compare m n) = .eq := by
    cases s with
    | positive => exact Option.some_inj
    | negative => exact Option.some_inj.trans Ordering.swap_eq_eq
  rw [hthen, Ordering.then_eq_eq, Int.compare_eq_eq, Nat.compare_eq_eq]

theorem same_of_compare (h : a.compare b = some .eq) :
    a ≠ .notANumber ∧ (a = b ∨ ∃ s t, a = .zero s ∧ b = .zero t) := by
  rcases a with ⟨_ | _⟩ | _ | s | ⟨_ | _, m, e, hm⟩ <;>
    rcases b with ⟨_ | _⟩ | _ | t | ⟨_ | _, n, f, hn⟩ <;>
    -- what differs in kind or in sign is less or greater, or there is a NaN
    first
      | cases h; done
      | exact ⟨UnpackedFloat.noConfusion, .inl rfl⟩
      | exact ⟨UnpackedFloat.noConfusion, .inr ⟨s, t, rfl, rfl⟩⟩
      | obtain ⟨rfl, rfl⟩ := compare_finite_iff.1 h
        exact ⟨UnpackedFloat.noConfusion, .inl rfl⟩

/-- Two doubles are equal if they are one number, or zeros of any signs. -/
theorem unpacked_beq_iff : a.beq b = true ↔
    a ≠ .notANumber ∧ (a = b ∨ ∃ s t, a = .zero s ∧ b = .zero t) := by
  have hcompare : a.beq b = true ↔ a.compare b = some .eq := beq_iff_eq
  rw [hcompare]
  refine ⟨same_of_compare, ?_⟩
  rintro ⟨hnumber, rfl | ⟨s, t, rfl, rfl⟩⟩
  · cases a with
    | infinity s => cases s <;> rfl
    | notANumber => exact absurd rfl hnumber
    | zero s => rfl
    | finite s m e hm => exact compare_finite_iff.2 ⟨rfl, rfl⟩
  · rfl

theorem float_beq_iff : (x == y) = true ↔
    x.toModel.unpack ≠ .notANumber ∧
      (x.toModel.unpack = y.toModel.unpack ∨
        ∃ s t, x.toModel.unpack = .zero s ∧ y.toModel.unpack = .zero t) :=
  unpacked_beq_iff

theorem float_isNaN_iff : x.isNaN = true ↔ x.toModel.unpack = .notANumber := by
  show x.toModel.unpack.isNaN = true ↔ _
  cases x.toModel.unpack with
  | notANumber => exact ⟨fun _ => rfl, fun _ => rfl⟩
  | _ => exact ⟨fun h => absurd h Bool.false_ne_true, UnpackedFloat.noConfusion⟩

theorem float_beq_symm (h : (x == y) = true) : (y == x) = true := by
  rw [float_beq_iff] at h ⊢
  obtain ⟨hx, hsame | ⟨s, t, hx', hy'⟩⟩ := h
  · exact ⟨hsame ▸ hx, .inl hsame.symm⟩
  · exact ⟨by rw [hy']; exact UnpackedFloat.noConfusion, .inr ⟨t, s, hy', hx'⟩⟩

theorem float_beq_trans (hxy : (x == y) = true) (hyz : (y == z) = true) : (x == z) = true := by
  rw [float_beq_iff] at hxy hyz ⊢
  obtain ⟨hx, hxy⟩ := hxy
  obtain ⟨-, hyz⟩ := hyz
  refine ⟨hx, ?_⟩
  rcases hxy with hxy | ⟨s, t, hs, ht⟩
  · rwa [hxy]
  · rcases hyz with hyz | ⟨-, u, -, hu⟩
    · exact .inr ⟨s, t, hs, hyz ▸ ht⟩
    · exact .inr ⟨s, u, hs, hu⟩

theorem float_beq_self_iff : (x == x) = true ↔ x.isNaN = false := by
  rw [float_beq_iff, ← Bool.not_eq_true, float_isNaN_iff]
  exact ⟨fun h => h.1, fun h => ⟨h, .inl rfl⟩⟩

end Doubles

/-! ### Steps into a value -/

/-- A step to an item of an array, or to the value under a name of a map. -/
inductive Step where
  | item (index : Nat)
  | entry (name : String)
  deriving DecidableEq

def child? : Value → Step → Option Value
  | .array items, .item index => items[index]?
  | .map entries, .entry name => Entries.get? name entries
  | _, _ => none

/-- The value at the end of a path. -/
def at? (v : Value) : List Step → Option Value
  | [] => some v
  | s :: rest => (v.child? s).bind fun x => x.at? rest

def setChild : Value → Step → Value → Value
  | .array items, .item index, w => .array (items.set index w)
  | .map entries, .entry name, w => .map (Entries.put name w entries)
  | v, _, _ => v

/-- The value with another one at the end of a path, if the path leads anywhere. -/
def replace (v w : Value) : List Step → Value
  | [] => w
  | s :: rest =>
    match v.child? s with
    | some x => v.setChild s (x.replace w rest)
    | none => v

/-- No NaN stands anywhere in the value. -/
def NanFree (v : Value) : Prop :=
  ∀ path x, v.at? path = some (.float x) → x.isNaN = false

/-- The entries of one map, at the end of any path, stand in another order. -/
def Reordered (a b : Value) : Prop :=
  ∃ path entries other, a.at? path = some (.map entries) ∧ entries.Perm other ∧
    b = a.replace (.map other) path

/-- What two values have in common if their parts are not looked at. -/
inductive Alike : Value → Value → Prop where
  | null : Alike .null .null
  | bool (b : Bool) : Alike (.bool b) (.bool b)
  | int (n : Int64) : Alike (.int n) (.int n)
  | float {x y : Float} (h : (x == y) = true) : Alike (.float x) (.float y)
  | str (s : String) : Alike (.str s) (.str s)
  | array {as bs : List Value} (h : as.length = bs.length) : Alike (.array as) (.array bs)
  | map {as bs : List (String × Value)} (h : (Entries.names as).Perm (Entries.names bs)) :
    Alike (.map as) (.map bs)

/-! ### Equality part by part -/

theorem eqItems_iff {as bs : List Value} :
    eqItems as bs = true ↔ List.Forall₂ (fun a b => a.eq b = true) as bs := by
  induction as generalizing bs with
  | nil => cases bs <;> simp [eqItems]
  | cons a as ih => cases bs <;> simp [eqItems, ih]

theorem eqEntries_iff {as bs : List (String × Value)} : eqEntries as bs = true ↔
    ∀ entry ∈ as, ∃ b, Entries.get? entry.1 bs = some b ∧ entry.2.eq b = true := by
  induction as with
  | nil => simp [eqEntries]
  | cons entry as ih =>
    rw [eqEntries, Bool.and_eq_true, ih, List.forall_mem_cons]
    cases Entries.get? entry.1 bs <;> simp

theorem eq_array_iff {as bs : List Value} : (array as).eq (array bs) = true ↔
    as.length = bs.length ∧
      ∀ (i : Nat) (x y : Value), as[i]? = some x → bs[i]? = some y → x.eq y = true := by
  rw [eq, eqItems_iff, List.forall₂_iff_get]
  refine and_congr_right fun hlength => ⟨fun h i x y hx hy => ?_, fun h i hi hj => ?_⟩
  · obtain ⟨hi, rfl⟩ := List.getElem?_eq_some_iff.1 hx
    obtain ⟨hj, rfl⟩ := List.getElem?_eq_some_iff.1 hy
    exact h i hi hj
  · exact h i _ _ (List.getElem?_eq_getElem hi) (List.getElem?_eq_getElem hj)

/-- Finding each name of one map in another one of the same size is finding the same names. -/
theorem eq_map_iff {as bs : List (String × Value)} (hd : (Entries.names as).Nodup) :
    (map as).eq (map bs) = true ↔
      (Entries.names as).Perm (Entries.names bs) ∧
        ∀ name x y, Entries.get? name as = some x → Entries.get? name bs = some y →
          x.eq y = true := by
  rw [eq, Bool.and_eq_true, beq_iff_eq, eqEntries_iff]
  constructor
  · rintro ⟨hlength, hfound⟩
    have hsubset : Entries.names as ⊆ Entries.names bs := by
      intro name hname
      obtain ⟨entry, hentry, rfl⟩ := List.mem_map.1 hname
      obtain ⟨b, hb, -⟩ := hfound entry hentry
      exact Entries.mem_names_of_get? hb
    -- Distinct names, all of them found among no more names than they are.
    refine ⟨(List.subperm_of_subset hd hsubset).perm_of_length_le ?_, fun name x y hx hy => ?_⟩
    · simp [Entries.names, hlength]
    · obtain ⟨b, hb, hxb⟩ := hfound _ ((Entries.get?_eq_some_iff hd).1 hx)
      rwa [Option.some.inj (hy.symm.trans hb)]
  · rintro ⟨hnames, hequal⟩
    refine ⟨by simpa [Entries.names] using hnames.length_eq, fun entry hentry => ?_⟩
    obtain ⟨y, hy⟩ := Entries.mem_names_iff.1 (hnames.mem_iff.1 (List.mem_map_of_mem hentry))
    exact ⟨y, hy, hequal entry.1 entry.2 y (Entries.get?_of_mem hd hentry) hy⟩

theorem eq_iff {a b : Value} (ha : a.Distinct) : a.eq b = true ↔
    a.Alike b ∧ ∀ s x y, a.child? s = some x → b.child? s = some y → x.eq y = true := by
  constructor
  · intro h
    fun_cases eq a b with
    | case1 => exact ⟨.null, nofun⟩
    | case2 a b =>
      obtain rfl : a = b := by simpa [eq] using h
      exact ⟨.bool a, nofun⟩
    | case3 a b =>
      obtain rfl : a = b := by simpa [eq] using h
      exact ⟨.int a, nofun⟩
    | case4 x y => exact ⟨.float h, nofun⟩
    | case5 a b =>
      obtain rfl : a = b := by simpa [eq] using h
      exact ⟨.str a, nofun⟩
    | case6 as bs =>
      obtain ⟨hlength, hitems⟩ := eq_array_iff.1 h
      refine ⟨.array hlength, fun s x y hx hy => ?_⟩
      cases s with
      | item i => exact hitems i x y hx hy
      | entry name => cases hx
    | case7 as bs =>
      obtain ⟨hnames, hentries⟩ := (eq_map_iff ha.1).1 h
      refine ⟨.map hnames, fun s x y hx hy => ?_⟩
      cases s with
      | item i => cases hx
      | entry name => exact hentries name x y hx hy
    | case8 => simp [eq, *] at h
  · rintro ⟨halike, hchild⟩
    cases halike with
    | null => rfl
    | bool b => simp [eq]
    | int n => simp [eq]
    | float h => exact h
    | str s => simp [eq]
    | array h => exact eq_array_iff.2 ⟨h, fun i => hchild (.item i)⟩
    | map h => exact (eq_map_iff ha.1).2 ⟨h, fun name => hchild (.entry name)⟩

/-! ### Equality from both sides -/

namespace Alike
variable {a b c : Value}

theorem symm (h : a.Alike b) : b.Alike a := by
  cases h with
  | null => exact .null
  | bool b => exact .bool b
  | int n => exact .int n
  | float h => exact .float (float_beq_symm h)
  | str s => exact .str s
  | array h => exact .array h.symm
  | map h => exact .map h.symm

theorem trans (hab : a.Alike b) (hbc : b.Alike c) : a.Alike c := by
  cases hab with
  | null => exact hbc
  | bool b => exact hbc
  | int n => exact hbc
  | float hab =>
    cases hbc with
    | float hbc => exact .float (float_beq_trans hab hbc)
  | str s => exact hbc
  | array hab =>
    cases hbc with
    | array hbc => exact .array (hab.trans hbc)
  | map hab =>
    cases hbc with
    | map hbc => exact .map (hab.trans hbc)

theorem self_iff : a.Alike a ↔ ∀ x, a = .float x → x.isNaN = false := by
  constructor
  · rintro h x rfl
    cases h with
    | float h => exact float_beq_self_iff.1 h
  · intro h
    cases a with
    | null => exact .null
    | bool b => exact .bool b
    | int n => exact .int n
    | float x => exact .float (float_beq_self_iff.2 (h x rfl))
    | str s => exact .str s
    | array items => exact .array rfl
    | map entries => exact .map (.refl _)

theorem typeName_eq (h : a.Alike b) : a.typeName = b.typeName := by
  cases h <;> rfl

/-- What alike values have parts of is the same. -/
theorem child? (h : a.Alike b) {s : Step} {x : Value} (hx : a.child? s = some x) :
    ∃ y, b.child? s = some y := by
  cases h with
  | array h =>
    cases s with
    | item i =>
      obtain ⟨hi, -⟩ := List.getElem?_eq_some_iff.1 hx
      exact ⟨_, List.getElem?_eq_getElem (h ▸ hi)⟩
    | entry name => cases hx
  | map h =>
    cases s with
    | item i => cases hx
    | entry name => exact Entries.mem_names_iff.1 (h.mem_iff.1 (Entries.mem_names_of_get? hx))
  | _ => cases hx

end Alike

theorem sizeOf_child? {v x : Value} {s : Step} (h : v.child? s = some x) : sizeOf x < sizeOf v := by
  fun_cases child? v s with
  | case1 items i =>
    have := List.sizeOf_lt_of_mem (List.mem_of_getElem? h)
    simp only [array.sizeOf_spec]
    omega
  | case2 entries name =>
    have := List.sizeOf_lt_of_mem (Entries.mem_of_get? h)
    simp only [Prod.mk.sizeOf_spec, map.sizeOf_spec] at *
    omega
  | case3 => simp [child?, *] at h

/-- Induction along the steps into a value. -/
theorem by_parts {P : Value → Prop} (h : ∀ v, (∀ s x, v.child? s = some x → P x) → P v)
    (v : Value) : P v :=
  h v fun s x hx =>
    have : sizeOf x < sizeOf v := sizeOf_child? hx
    by_parts h x
termination_by sizeOf v

theorem distinctItems_iff {items : List Value} :
    DistinctItems items ↔ ∀ v ∈ items, v.Distinct := by
  induction items with
  | nil => simp [DistinctItems]
  | cons item rest ih => simp [DistinctItems, ih]

theorem distinctEntries_iff {entries : List (String × Value)} :
    DistinctEntries entries ↔ ∀ entry ∈ entries, entry.2.Distinct := by
  induction entries with
  | nil => simp [DistinctEntries]
  | cons entry rest ih => simp [DistinctEntries, ih]

theorem distinct_iff {v : Value} : v.Distinct ↔
    (∀ entries, v = .map entries → (Entries.names entries).Nodup) ∧
      ∀ s x, v.child? s = some x → x.Distinct := by
  cases v with
  | array items =>
    rw [Distinct, distinctItems_iff]
    constructor
    · refine fun h => ⟨nofun, fun s x hx => ?_⟩
      cases s with
      | item i => exact h x (List.mem_of_getElem? hx)
      | entry name => cases hx
    · intro h v hv
      obtain ⟨i, hi⟩ := List.mem_iff_getElem?.1 hv
      exact h.2 (.item i) v hi
  | map entries =>
    rw [Distinct, distinctEntries_iff]
    constructor
    · rintro ⟨hd, h⟩
      refine ⟨fun other hother => ?_, fun s x hx => ?_⟩
      · cases hother
        exact hd
      · cases s with
        | item i => cases hx
        | entry name => exact h _ (Entries.mem_of_get? hx)
    · rintro ⟨hd, h⟩
      exact ⟨hd entries rfl, fun entry hentry =>
        h (.entry entry.1) entry.2 (Entries.get?_of_mem (hd entries rfl) hentry)⟩
  | _ => exact ⟨fun _ => ⟨nofun, nofun⟩, fun _ => trivial⟩

theorem Distinct.child? {v x : Value} {s : Step} (h : v.Distinct) (hx : v.child? s = some x) :
    x.Distinct :=
  (distinct_iff.1 h).2 s x hx

theorem eq_symm {a b : Value} (ha : a.Distinct) (hb : b.Distinct) (h : a.eq b = true) :
    b.eq a = true := by
  induction a using by_parts generalizing b with
  | h a ih =>
    obtain ⟨halike, hparts⟩ := (eq_iff ha).1 h
    refine (eq_iff hb).2 ⟨halike.symm, fun s y x hy hx => ?_⟩
    exact ih s x hx (ha.child? hx) (hb.child? hy) (hparts s x y hx hy)

theorem eq_trans {a b c : Value} (ha : a.Distinct) (hb : b.Distinct) (hab : a.eq b = true)
    (hbc : b.eq c = true) : a.eq c = true := by
  induction a using by_parts generalizing b c with
  | h a ih =>
    obtain ⟨halike, hparts⟩ := (eq_iff ha).1 hab
    obtain ⟨hblike, hbparts⟩ := (eq_iff hb).1 hbc
    refine (eq_iff ha).2 ⟨halike.trans hblike, fun s x z hx hz => ?_⟩
    obtain ⟨y, hy⟩ := halike.child? hx
    exact ih s x hx (ha.child? hx) (hb.child? hy) (hparts s x y hx hy) (hbparts s y z hy hz)

theorem nanFree_iff {v : Value} : v.NanFree ↔
    (∀ x, v = .float x → x.isNaN = false) ∧ ∀ s w, v.child? s = some w → w.NanFree := by
  constructor
  · intro h
    refine ⟨fun x hx => h [] x (congrArg some hx), fun s w hw path x hx => h (s :: path) x ?_⟩
    rw [at?, hw]
    exact hx
  · rintro ⟨hself, hparts⟩ path x hx
    cases path with
    | nil => exact hself x (Option.some.inj hx)
    | cons s rest =>
      obtain ⟨w, hw, hx⟩ := Option.bind_eq_some_iff.1 hx
      exact hparts s w hw rest x hx

/-- A value differs from itself exactly if a NaN stands somewhere in it. -/
theorem eq_self_iff {v : Value} (hv : v.Distinct) : v.eq v = true ↔ v.NanFree := by
  induction v using by_parts with
  | h v ih =>
    rw [eq_iff hv, nanFree_iff, Alike.self_iff]
    refine and_congr_right fun _ => ⟨fun h s x hx => ?_, fun h s x y hx hy => ?_⟩
    · exact (ih s x hx (hv.child? hx)).1 (h s x x hx hx)
    · obtain rfl : x = y := Option.some.inj (hx.symm.trans hy)
      exact (ih s x hx (hv.child? hx)).2 (h s x hx)

/-! ### Along a path -/

theorem at?_of_eq {a b x : Value} (ha : a.Distinct) (h : a.eq b = true) {path : List Step}
    (hx : a.at? path = some x) : ∃ y, b.at? path = some y ∧ x.eq y = true := by
  induction path generalizing a b with
  | nil =>
    obtain rfl := Option.some.inj hx
    exact ⟨b, rfl, h⟩
  | cons s rest ih =>
    obtain ⟨halike, hparts⟩ := (eq_iff ha).1 h
    obtain ⟨u, hu, hx⟩ := Option.bind_eq_some_iff.1 hx
    obtain ⟨w, hw⟩ := halike.child? hu
    obtain ⟨y, hy, hxy⟩ := ih (ha.child? hu) (hparts s u w hu hw) hx
    refine ⟨y, ?_, hxy⟩
    rw [at?, hw]
    exact hy

theorem Distinct.at? {v x : Value} (hv : v.Distinct) {path : List Step}
    (hx : v.at? path = some x) : x.Distinct := by
  induction path generalizing v with
  | nil => exact Option.some.inj hx ▸ hv
  | cons s rest ih =>
    obtain ⟨w, hw, hx⟩ := Option.bind_eq_some_iff.1 hx
    exact ih (hv.child? hw) hx

theorem NanFree.at? {v x : Value} (hv : v.NanFree) {path : List Step}
    (hx : v.at? path = some x) : x.NanFree := by
  induction path generalizing v with
  | nil => exact Option.some.inj hx ▸ hv
  | cons s rest ih =>
    obtain ⟨w, hw, hx⟩ := Option.bind_eq_some_iff.1 hx
    exact ih ((nanFree_iff.1 hv).2 s w hw) hx

section SetChild
variable {v x : Value} {s : Step}

theorem child?_setChild (hs : v.child? s = some x) (w : Value) (t : Step) :
    (v.setChild s w).child? t = if t = s then some w else v.child? t := by
  fun_cases child? v s with
  | case1 items i =>
    cases t with
    | item j =>
      obtain ⟨hi, -⟩ := List.getElem?_eq_some_iff.1 hs
      by_cases hj : j = i
      · subst hj
        simp [setChild, child?, hi]
      · simp [setChild, child?, hj, List.getElem?_set_ne (Ne.symm hj)]
    | entry name => simp [setChild, child?]
  | case2 entries name =>
    cases t with
    | item j => simp [setChild, child?]
    | entry other =>
      by_cases ho : other = name <;> simp [setChild, child?, Entries.get?_put, ho]
  | case3 => simp [child?, *] at hs

theorem alike_setChild (hs : v.child? s = some x) (w : Value) : v.Alike (v.setChild s w) := by
  fun_cases child? v s with
  | case1 items i => exact .array (List.length_set ..).symm
  | case2 entries name =>
    refine .map (.of_eq ?_)
    rw [Entries.names_put, if_pos (Entries.mem_names_of_get? hs)]
  | case3 => simp [child?, *] at hs

theorem Distinct.setChild (hv : v.Distinct) (hs : v.child? s = some x) {w : Value}
    (hw : w.Distinct) : (v.setChild s w).Distinct := by
  refine distinct_iff.2 ⟨fun entries hentries => ?_, fun t y hy => ?_⟩
  · have halike := alike_setChild hs w
    rw [hentries] at halike
    cases halike with
    | map h => exact h.nodup_iff.1 ((distinct_iff.1 hv).1 _ rfl)
  · rw [child?_setChild hs] at hy
    split at hy
    · exact Option.some.inj hy ▸ hw
    · exact hv.child? hy

end SetChild

theorem at?_replace {v x : Value} (w : Value) {path : List Step} (hx : v.at? path = some x) :
    (v.replace w path).at? path = some w := by
  induction path generalizing v with
  | nil => rfl
  | cons s rest ih =>
    obtain ⟨u, hu, hx⟩ := Option.bind_eq_some_iff.1 hx
    rw [replace, hu]
    simp only [at?]
    rw [child?_setChild hu, if_pos rfl]
    exact ih hx

theorem Distinct.replace {v w : Value} (hv : v.Distinct) (hw : w.Distinct) (path : List Step) :
    (v.replace w path).Distinct := by
  induction path generalizing v with
  | nil => exact hw
  | cons s rest ih =>
    rw [Value.replace]
    split
    · next u hu => exact hv.setChild hu (ih (hv.child? hu))
    · exact hv

/-- A part may be exchanged for no other value than an equal one. -/
theorem eq_of_replace_eq {v x w : Value} (hv : v.Distinct) {path : List Step}
    (hx : v.at? path = some x) (h : v.eq (v.replace w path) = true) : x.eq w = true := by
  obtain ⟨y, hy, hxy⟩ := at?_of_eq hv h hx
  rw [at?_replace w hx] at hy
  exact Option.some.inj hy ▸ hxy

/-- A part may be exchanged for an equal value, if the rest of the value equals itself. -/
theorem replace_eq {v x w : Value} (hv : v.Distinct) (hnan : v.NanFree) {path : List Step}
    (hx : v.at? path = some x) (h : x.eq w = true) : v.eq (v.replace w path) = true := by
  induction path generalizing v with
  | nil => exact Option.some.inj hx ▸ h
  | cons s rest ih =>
    obtain ⟨u, hu, hx⟩ := Option.bind_eq_some_iff.1 hx
    have hparts := (nanFree_iff.1 hnan).2
    have hpart := ih (hv.child? hu) (hparts s u hu) hx
    rw [replace, hu]
    refine (eq_iff hv).2 ⟨alike_setChild hu _, fun t y z hy hz => ?_⟩
    rw [child?_setChild hu] at hz
    split at hz
    · next hts =>
      rw [hts, hu] at hy
      exact Option.some.inj hy ▸ Option.some.inj hz ▸ hpart
    · rw [Option.some.inj (hz.symm.trans hy)]
      exact (eq_self_iff (hv.child? hy)).2 (hparts t y hy)

/-! ### Other orders -/

theorem eq_map_of_perm {entries other : List (String × Value)} (hv : (map entries).Distinct)
    (hnan : (map entries).NanFree) (h : entries.Perm other) :
    (map entries).eq (map other) = true ∧ (map other).Distinct := by
  have hd : (Entries.names entries).Nodup := hv.1
  have hnames : (Entries.names entries).Perm (Entries.names other) := h.map Prod.fst
  have hchild : ∀ s, (map other).child? s = (map entries).child? s := by
    intro s
    cases s with
    | item i => rfl
    | entry name => exact Entries.get?_of_perm hd h name
  constructor
  · refine (eq_iff hv).2 ⟨.map hnames, fun s x y hx hy => ?_⟩
    rw [hchild, hx] at hy
    exact Option.some.inj hy ▸ (eq_self_iff (hv.child? hx)).2 ((nanFree_iff.1 hnan).2 s x hx)
  · refine distinct_iff.2 ⟨fun es hes => ?_, fun s x hx => ?_⟩
    · cases hes
      exact hnames.nodup_iff.1 hd
    · rw [hchild] at hx
      exact hv.child? hx

theorem eq_of_reordered {a b : Value} (ha : a.Distinct) (hnan : a.NanFree) (h : a.Reordered b) :
    a.eq b = true ∧ b.Distinct := by
  obtain ⟨path, entries, other, hentries, hperm, rfl⟩ := h
  obtain ⟨heq, hd⟩ := eq_map_of_perm (ha.at? hentries) (hnan.at? hentries) hperm
  exact ⟨replace_eq ha hnan hentries heq, ha.replace hd path⟩

/-- Any number of maps in any order. -/
theorem eq_of_reorderings {a b : Value} (ha : a.Distinct) (hnan : a.NanFree)
    (h : Relation.ReflTransGen Reordered a b) : a.eq b = true ∧ b.Distinct := by
  induction h with
  | refl => exact ⟨(eq_self_iff ha).2 hnan, ha⟩
  | tail _ hstep ih =>
    obtain ⟨hab, hb⟩ := ih
    -- A value that is equal to some other is equal to itself, so it has no NaN either.
    have hbb := eq_trans hb ha (eq_symm ha hb hab) hab
    obtain ⟨hbc, hc⟩ := eq_of_reordered hb ((eq_self_iff hb).1 hbb) hstep
    exact ⟨eq_trans ha hb hab hbc, hc⟩

theorem typeName_eq_of_eq {a b : Value} (ha : a.Distinct) (h : a.eq b = true) :
    a.typeName = b.typeName :=
  ((eq_iff ha).1 h).1.typeName_eq

/-- Among values that repeat no name in a map, equality is symmetric and transitive, and a value is
equal to itself exactly if no NaN stands anywhere in it. A value without NaN stays equal whatever
maps in it are reordered, at any depths. With an array in it exchanged for another one, be it of
the same items in another order, a value is equal only if the items are so one by one, and without
NaN it then is. Values that have parts of different types at the end of one path are not equal. -/
theorem eq_equivalence {a b : Value} (ha : a.Distinct) (hb : b.Distinct) :
    (a.eq b = true → b.eq a = true) ∧
      (∀ c, a.eq b = true → b.eq c = true → a.eq c = true) ∧
      (a.eq a = true ↔ a.NanFree) ∧
      (a.NanFree → ∀ other, Relation.ReflTransGen Reordered a other → a.eq other = true) ∧
      (∀ path items other, a.at? path = some (.array items) →
        (a.eq (a.replace (.array other) path) = true →
          List.Forall₂ (fun x y => x.eq y = true) items other) ∧
        (a.NanFree → List.Forall₂ (fun x y => x.eq y = true) items other →
          a.eq (a.replace (.array other) path) = true)) ∧
      ∀ path x y, a.at? path = some x → b.at? path = some y → x.typeName ≠ y.typeName →
        a.eq b = false := by
  have harray : ∀ items other : List Value, (array items).eq (array other) = true ↔
      List.Forall₂ (fun x y => x.eq y = true) items other := fun items other => by
    rw [eq, eqItems_iff]
  refine ⟨eq_symm ha hb, fun c => eq_trans ha hb, eq_self_iff ha,
    fun hnan other h => (eq_of_reorderings ha hnan h).1, fun path items other hitems => ⟨?_, ?_⟩,
    fun path x y hx hy hne => ?_⟩
  · exact fun h => (harray items other).1 (eq_of_replace_eq ha hitems h)
  · exact fun hnan h => replace_eq ha hnan hitems ((harray items other).2 h)
  · by_contra h
    rw [Bool.not_eq_false] at h
    obtain ⟨w, hw, hxw⟩ := at?_of_eq ha h hx
    rw [hy] at hw
    exact hne (Option.some.inj hw ▸ typeName_eq_of_eq (ha.at? hx) hxw)

/-- Two maps with other orders inside and zeros of either sign; and the first with its array turned
around, which is not equal item by item as an integer is no double. -/
theorem eq_equivalence_nested :
    let a : Value := .map [("p", .array [.int 0, .float 0.0]),
      ("q", .map [("x", .null), ("y", .bool true)])]
    let b : Value := .map [("q", .map [("y", .bool true), ("x", .null)]),
      ("p", .array [.int 0, .float (-0.0)])]
    a.Distinct ∧ b.Distinct ∧ b.eq a = true ∧
      a.eq (a.replace (.array [.float 0.0, .int 0]) [.entry "p"]) = false := by
  intro a b
  have ha : a.Distinct := by
    simp [a, Distinct, DistinctItems, DistinctEntries, Entries.names]
  have hb : b.Distinct := by
    simp [b, Distinct, DistinctItems, DistinctEntries, Entries.names]
  obtain ⟨hsymm, -, -, -, harray, -⟩ := eq_equivalence ha hb
  refine ⟨ha, hb, hsymm (by rfl), ?_⟩
  rw [← Bool.not_eq_true]
  intro h
  have hitems := (harray [.entry "p"] [.int 0, .float 0.0] [.float 0.0, .int 0] rfl).1 h
  simp [eq] at hitems

end Aggregation.Value
