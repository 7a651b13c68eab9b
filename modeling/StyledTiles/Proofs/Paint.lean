import StyledTiles.Paint
import StyledTiles.Proofs.Number.Denoted

/-!
# Where paint hides

What a paint value of a document says about an integer zoom. A number hides everywhere if it is zero. A
table hides where its first stop at the zoom is zero; a stop is at the zoom that is left when the fraction
of its own is cut off, so one at 3.5 hides at 3. Anything else hides nowhere, and so does a table with
something in it that is not a stop.

A table hides nowhere but at the zooms of its stops, cut off. Nothing is said of what is drawn between
them.
-/
namespace StyledTiles

open Outcome

namespace Json

/-- An array that starts with two finite numbers, or is too short to. -/
def IsStop (item : Json) : Prop :=
  ∃ parts, item = .arr parts ∧ ∀ zoom value more, parts = zoom :: value :: more →
    (∃ p, zoom.Denotes p) ∧ ∃ q, value.Denotes q

/-- The item is a stop with value `w`, and what is left of its zoom without the fraction is `z`. -/
def StopAt (z : Int) (w : Rat) (item : Json) : Prop :=
  ∃ zoom value more q, item = .arr (zoom :: value :: more) ∧ zoom.Denotes q ∧ towardZero q = z ∧
    0 ≤ z ∧ z ≤ Paint.maxZoom ∧ value.Denotes w

/-- The first stop at a zoom among the items has value `w`. -/
def FirstStopAt (z : Int) (w : Rat) (items : List Json) : Prop :=
  ∃ before item after, items = before ++ item :: after ∧ (∀ i ∈ before, ∀ v, ¬ StopAt z v i) ∧
    StopAt z w item

/-- The paint value does not hide at a zoom. -/
structure ShowsAt (z : Int) (j : Json) : Prop where
  constant : ∀ q, j.Denotes q → q ≠ 0
  stops : ∀ ms items, j = .obj ms → member ms "stops" = .arr items → (∀ item ∈ items, item.IsStop) →
    ∀ w, FirstStopAt z w items → w ≠ 0

theorem not_firstStopAt_nil {z : Int} {w : Rat} : ¬ FirstStopAt z w [] := by
  rintro ⟨before, item, after, heq, _⟩
  simp at heq

theorem firstStopAt_cons {z : Int} {w : Rat} {item : Json} {items : List Json} :
    FirstStopAt z w (item :: items) ↔
      StopAt z w item ∨ (∀ v, ¬ StopAt z v item) ∧ FirstStopAt z w items := by
  constructor
  · rintro ⟨before, first, after, heq, hbefore, hfirst⟩
    cases before with
    | nil =>
      cases heq
      exact .inl hfirst
    | cons head before =>
      cases heq
      rw [List.forall_mem_cons] at hbefore
      exact .inr ⟨hbefore.1, before, first, after, rfl, hbefore.2, hfirst⟩
  · rintro (hfirst | ⟨hitem, before, first, after, rfl, hbefore, hfirst⟩)
    · exact ⟨[], item, items, rfl, by simp, hfirst⟩
    · exact ⟨item :: before, first, after, rfl, List.forall_mem_cons.mpr ⟨hitem, hbefore⟩, hfirst⟩

end Json

namespace Paint

/-! ## One stop -/

/-- What an item leaves in a table: nothing at all if it spoils the table, else a stop or no stop. -/
def stopOf : Json → Except OutOfRange (Option (Option (Nat × Binary64)))
  | .arr (zoom :: value :: _) => do
    match ← zoom.finite with
    | none => return none
    | some place =>
      match ← value.finite with
      | none => return none
      | some x => return some ((stopZoom? place).map fun z => (z, x))
  | .arr _ => .ok (some none)
  | _ => .ok none

theorem stopsOf_cons (item : Json) (items : List Json) :
    stopsOf (item :: items) = stopOf item >>= fun
      | none => .ok none
      | some stop => (stopsOf items).map fun table => table.map (stop.toList ++ ·) := by
  match item with
  | .arr (zoom :: value :: more) =>
    rw [stopsOf, stopOf]
    cases zoom.finite with
    | error e => rfl
    | ok place? =>
      cases place? with
      | none => rfl
      | some place =>
        cases value.finite with
        | error e => rfl
        | ok x? =>
          cases x? with
          | none => rfl
          | some x =>
            cases stopsOf items with
            | error e => rfl
            | ok table =>
              simp only [bind, Except.bind, pure, Except.pure]
              cases stopZoom? place with
              | none => cases table <;> rfl
              | some z => rfl
  | .arr [] | .arr [_] =>
    rw [stopsOf, stopOf]
    · cases stopsOf items with
      | error e => rfl
      | ok table => cases table <;> rfl
    all_goals simp
  | .null | .bool _ | .num _ | .str _ | .obj _ => rfl

/-- The zoom of a stop is the integer left of its number, between the ends of the zooms. -/
theorem stopZoom?_eq_some {x : Binary64} {q : Rat} (h : x.toRat? = some q) {z : Nat} :
    stopZoom? x = some z ↔ towardZero q = z ∧ z ≤ maxZoom := by
  rw [stopZoom?, Binary64.truncate?_eq h]
  simp only [Option.ite_none_right_eq_some, Option.some.injEq]
  omega

/-- The ways in which an item is taken for a stop, left out, or spoils the table. -/
inductive StopRead : Json → Option (Option (Nat × Binary64)) → Prop
  | stop {zoom value : Json} (more : List Json) {place x : Binary64} {p q : Rat}
      (hplace : place.toRat? = some p) (hzoom : zoom.Denotes p) (hx : x.toRat? = some q)
      (hvalue : value.Denotes q) :
      StopRead (.arr (zoom :: value :: more)) (some ((stopZoom? place).map fun z => (z, x)))
  | short {parts : List Json} (h : ∀ zoom value more, parts ≠ zoom :: value :: more) :
      StopRead (.arr parts) (some none)
  | notNumbers {zoom value : Json} (more : List Json)
      (h : ¬ ((∃ p, zoom.Denotes p) ∧ ∃ q, value.Denotes q)) :
      StopRead (.arr (zoom :: value :: more)) none
  | notArray {item : Json} (h : ∀ parts, item ≠ .arr parts) : StopRead item none

theorem stopRead_of_stopOf {item : Json} {stop? : Option (Option (Nat × Binary64))}
    (h : stopOf item = .ok stop?) : StopRead item stop? := by
  match item with
  | .arr (zoom :: value :: more) =>
    obtain ⟨place?, hplace, h⟩ := bind_eq_ok.mp h
    cases place? with
    | none =>
      cases pure_eq_ok.mp h
      exact .notNumbers more fun ⟨⟨p, hp⟩, _⟩ => Json.not_denotes hplace p hp
    | some place =>
      obtain ⟨x?, hx, h⟩ := bind_eq_ok.mp h
      cases x? with
      | none =>
        cases pure_eq_ok.mp h
        exact .notNumbers more fun ⟨_, q, hq⟩ => Json.not_denotes hx q hq
      | some x =>
        cases pure_eq_ok.mp h
        obtain ⟨p, hplace, hzoom⟩ := Json.exists_denotes hplace
        obtain ⟨q, hx, hvalue⟩ := Json.exists_denotes hx
        exact .stop more hplace hzoom hx hvalue
  | .arr [] | .arr [_] =>
    cases h
    exact .short (by simp)
  | .null | .bool _ | .num _ | .str _ | .obj _ =>
    cases h
    exact .notArray (by simp)

/-- An item spoils no table exactly if it is a stop. -/
theorem stopOf_isStop {item : Json} {stop? : Option (Option (Nat × Binary64))}
    (h : stopOf item = .ok stop?) : stop?.isSome = true ↔ item.IsStop := by
  cases stopRead_of_stopOf h with
  | stop more hplace hzoom hx hvalue =>
    refine iff_of_true rfl ⟨_, rfl, ?_⟩
    rintro _ _ _ ⟨⟩
    exact ⟨⟨_, hzoom⟩, _, hvalue⟩
  | short hparts => exact iff_of_true rfl ⟨_, rfl, fun _ _ _ heq => absurd heq (hparts _ _ _)⟩
  | notNumbers more hnot =>
    refine iff_of_false nofun ?_
    rintro ⟨_, heq, hparts⟩
    cases heq
    exact hnot (hparts _ _ _ rfl)
  | notArray harr =>
    refine iff_of_false nofun ?_
    rintro ⟨parts, heq, _⟩
    exact harr parts heq

/-- An item is a stop at a zoom exactly if it leaves a stop with this zoom. -/
theorem stopOf_stopAt {item : Json} {stop : Option (Nat × Binary64)}
    (h : stopOf item = .ok (some stop)) {z : Int} {w : Rat} :
    item.StopAt z w ↔ ∃ s, stop = some s ∧ (s.1 : Int) = z ∧ s.2.toRat? = some w := by
  cases stopRead_of_stopOf h with
  | @stop _ _ _ place x p q hplace hzoom hx hvalue =>
    constructor
    · rintro ⟨_, _, _, _, heq, hzoom', hcut, hlow, hhigh, hvalue'⟩
      cases heq
      obtain rfl := hzoom.unique hzoom'
      obtain rfl := hvalue.unique hvalue'
      have hstop : stopZoom? place = some z.toNat :=
        (stopZoom?_eq_some hplace).mpr ⟨by omega, by omega⟩
      exact ⟨(z.toNat, x), by rw [hstop]; rfl, Int.toNat_of_nonneg hlow, hx⟩
    · rintro ⟨s, hs, rfl, hw⟩
      obtain ⟨n, hn, rfl⟩ := Option.map_eq_some_iff.mp hs
      obtain ⟨hcut, hbound⟩ := (stopZoom?_eq_some hplace).mp hn
      obtain rfl := Option.some.inj (hx.symm.trans hw)
      exact ⟨_, _, _, p, rfl, hzoom, hcut, Int.natCast_nonneg n, by omega, hvalue⟩
  | short hparts =>
    refine iff_of_false ?_ nofun
    rintro ⟨zoom, value, more, _, heq, _⟩
    cases heq
    exact hparts zoom value more rfl

theorem stopOf_finite {item : Json} {s : Nat × Binary64} (h : stopOf item = .ok (some (some s))) :
    ∃ q, s.2.toRat? = some q := by
  generalize hstop : some (some s) = stop? at h
  cases stopRead_of_stopOf h with
  | stop more hplace hzoom hx hvalue =>
    obtain ⟨_, _, rfl⟩ := Option.map_eq_some_iff.mp (Option.some.inj hstop).symm
    exact ⟨_, hx⟩
  | _ => cases hstop

/-! ## Tables -/

theorem stopsOf_isStop {items : List Json} {table? : Option (List (Nat × Binary64))}
    (h : stopsOf items = .ok table?) :
    table?.isSome = true ↔ ∀ item ∈ items, item.IsStop := by
  induction items generalizing table? with
  | nil =>
    cases h
    simp
  | cons item items ih =>
    rw [stopsOf_cons, bind_eq_ok] at h
    obtain ⟨stop?, hstop, h⟩ := h
    rw [List.forall_mem_cons, ← stopOf_isStop hstop]
    cases stop? with
    | none =>
      cases h
      simp
    | some stop =>
      obtain ⟨later, hlater, rfl⟩ := map_eq_ok.mp h
      simp [← ih hlater]

/-- A table is looked up at a zoom as the first stop there is looked for among the items. -/
theorem stopsOf_firstStopAt {items : List Json} {table : List (Nat × Binary64)}
    (h : stopsOf items = .ok (some table)) {z : Int} {w : Rat} :
    Json.FirstStopAt z w items ↔
      ∃ s, table.find? (fun s => (Number.int s.1).same (.int z)) = some s ∧ s.2.toRat? = some w := by
  induction items generalizing table with
  | nil =>
    cases h
    simp [Json.not_firstStopAt_nil]
  | cons item items ih =>
    rw [stopsOf_cons, bind_eq_ok] at h
    obtain ⟨stop?, hstop, h⟩ := h
    cases stop? with
    | none => cases h
    | some stop =>
      obtain ⟨later?, hlater, heq⟩ := map_eq_ok.mp h
      obtain ⟨later, rfl, rfl⟩ := Option.map_eq_some_iff.mp heq
      rw [Json.firstStopAt_cons, ih hlater]
      simp only [stopOf_stopAt hstop]
      cases stop with
      | none => simp
      | some s =>
        obtain ⟨q, hq⟩ := stopOf_finite hstop
        rw [Option.toList_some, List.singleton_append, List.find?_cons]
        by_cases hz : (s.1 : Int) = z
        · rw [Number.same_int.mpr hz]
          simp [hz, hq]
        · have hother : (Number.int s.1).same (.int z) = false := by
            simpa using Number.same_int.not.mpr hz
          rw [hother]
          simp [hz]

/-- A table hides at a zoom exactly if the first stop there is zero. -/
theorem stops_hide_iff {items : List Json} {table : List (Nat × Binary64)}
    (h : stopsOf items = .ok (some table)) {z : Int} :
    (Paint.stops table).isNonzeroAt (.int z) = false ↔ Json.FirstStopAt z 0 items := by
  rw [stopsOf_firstStopAt h, isNonzeroAt]
  cases table.find? fun s => (Number.int s.1).same (.int z) with
  | none => simp
  | some s => simp [Binary64.isZero_iff]

theorem ofStops_eq_some {items : List Json} {paint : Paint} :
    ofStops items = .ok (some paint) ↔
      ∃ table, stopsOf items = .ok (some table) ∧ table ≠ [] ∧ paint = .stops table := by
  rw [ofStops, bind_eq_ok]
  constructor
  · rintro ⟨table?, htable, h⟩
    match table? with
    | some (stop :: rest) =>
      cases pure_eq_ok.mp h
      exact ⟨_, htable, List.cons_ne_nil _ _, rfl⟩
    | some [] | none => cases pure_eq_ok.mp h
  · rintro ⟨table, htable, hne, rfl⟩
    refine ⟨_, htable, ?_⟩
    cases table with
    | nil => exact absurd rfl hne
    | cons stop rest => rfl

/-- A list that reads as no table has something in it that is not a stop, or no stop within the zooms. -/
theorem not_firstStopAt_of_ofStops {items : List Json} (h : ofStops items = .ok none)
    (hstops : ∀ item ∈ items, item.IsStop) (z : Int) (w : Rat) : ¬ Json.FirstStopAt z w items := by
  obtain ⟨table?, htable, h⟩ := bind_eq_ok.mp h
  match table? with
  | some (stop :: rest) => cases pure_eq_ok.mp h
  | some [] =>
    rw [stopsOf_firstStopAt htable]
    simp
  | none => cases (stopsOf_isStop htable).mpr hstops

/-! ## Paint values -/

/-- What is read of a paint value hides exactly where the value does. -/
theorem ofJson_showsAt {j : Json} {paint? : Option Paint} (h : ofJson j = .ok paint?) {z : Int} :
    (∀ paint, paint? = some paint → paint.isNonzeroAt (.int z) = true) ↔ j.ShowsAt z := by
  cases j with
  | num n =>
    obtain ⟨x?, hx, h⟩ := bind_eq_ok.mp h
    cases pure_eq_ok.mp h
    cases x? with
    | none =>
      refine iff_of_true nofun ⟨fun q hq => ?_, nofun⟩
      exact absurd hq (Json.not_denotes (j := .num n) hx q)
    | some x =>
      obtain ⟨q, hxq, hq⟩ := Json.exists_denotes (j := .num n) hx
      have hnonzero : (Paint.constant x).isNonzeroAt (.int z) = true ↔ q ≠ 0 := by
        rw [isNonzeroAt, Bool.not_eq_true', ← Bool.not_eq_true, Binary64.isZero_iff, hxq,
          Option.some.injEq]
      constructor
      · intro hshows
        refine ⟨fun p hp => ?_, nofun⟩
        obtain rfl := hp.unique hq
        exact hnonzero.mp (hshows _ rfl)
      · rintro ⟨hconstant, _⟩ _ ⟨⟩
        exact hnonzero.mpr (hconstant q hq)
  | obj ms =>
    have hconstant (q : Rat) : ¬ (Json.obj ms).Denotes q := by
      rintro ⟨_, _, ⟨⟩, _⟩
    rw [ofJson] at h
    split at h
    next items hitems =>
      have hshows : (Json.obj ms).ShowsAt z ↔
          ((∀ item ∈ items, item.IsStop) → ∀ w, Json.FirstStopAt z w items → w ≠ 0) := by
        constructor
        · intro hshows
          exact hshows.stops ms items rfl hitems
        · intro hstops
          refine ⟨fun q hq => absurd hq (hconstant q), ?_⟩
          rintro _ items' ⟨⟩ hitems'
          cases hitems.symm.trans hitems'
          exact hstops
      rw [hshows]
      cases paint? with
      | none =>
        refine iff_of_true nofun fun hstops w hfirst => ?_
        exact absurd hfirst (not_firstStopAt_of_ofStops h hstops z w)
      | some paint =>
        obtain ⟨table, htable, _, rfl⟩ := ofStops_eq_some.mp h
        have hstops := (stopsOf_isStop htable).mp rfl
        have hhides := stops_hide_iff htable (z := z)
        constructor
        · rintro hnonzero _ w hfirst rfl
          have hhidden := hhides.mpr hfirst
          rw [hnonzero _ rfl] at hhidden
          cases hhidden
        · rintro hshows _ ⟨⟩
          rw [← Bool.not_eq_false, hhides]
          exact fun hfirst => hshows hstops 0 hfirst rfl
    next hnot =>
      cases h
      refine iff_of_true nofun ⟨fun q hq => absurd hq (hconstant q), ?_⟩
      rintro _ items ⟨⟩ hitems
      exact absurd hitems (hnot items)
  | _ =>
    cases h
    refine iff_of_true nofun ⟨?_, nofun⟩
    rintro q ⟨_, _, ⟨⟩, _⟩

/-! ## The paint of a layer -/

theorem ofMembers_cons_eq_ok {name : String} {j : Json} {ms : Json.Members}
    {paints : List (String × Paint)} : ofMembers ((name, j) :: ms) = .ok paints ↔
      ∃ paint rest, ofJson j = .ok paint ∧ ofMembers ms = .ok rest ∧
        paints = paint.toList.map (name, ·) ++ rest := by
  simp only [ofMembers, bind_eq_ok, pure_eq_ok]
  refine exists_congr fun paint => ?_
  constructor
  · rintro ⟨hpaint, rest, hrest, rfl⟩
    refine ⟨rest, hpaint, hrest, ?_⟩
    cases paint with
    | none => rfl
    | some paint => rfl
  · rintro ⟨rest, hpaint, hrest, rfl⟩
    refine ⟨hpaint, rest, hrest, ?_⟩
    cases paint with
    | none => rfl
    | some paint => rfl

/-- Under a name that is there once, what is read is read of the value under that name. -/
theorem lookup_ofMembers {ms : Json.Members} {paints : List (String × Paint)}
    (h : ofMembers ms = .ok paints) (hkeys : (ms.map Prod.fst).Nodup) {property : String}
    {paint : Paint} : paints.lookup property = some paint ↔
      ∃ j, ms.lookup property = some j ∧ ofJson j = .ok (some paint) := by
  induction ms generalizing paints with
  | nil =>
    cases h
    simp
  | cons m ms ih =>
    obtain ⟨name, j⟩ := m
    obtain ⟨paint?, rest, hpaint, hrest, rfl⟩ := ofMembers_cons_eq_ok.mp h
    rw [List.map_cons, List.nodup_cons] at hkeys
    have hlater := ih hrest hkeys.2
    by_cases hname : property = name
    · subst hname
      have hnone : ms.lookup property = none := by
        rw [List.lookup_eq_none_iff]
        rintro ⟨name, j'⟩ hm
        have hne : property ≠ name := by
          rintro rfl
          exact hkeys.1 (List.mem_map.mpr ⟨_, hm, rfl⟩)
        simpa using hne
      cases paint? with
      | none => simp [hlater, hnone, hpaint]
      | some paint' => simp [hpaint]
    · have hother : (property == name) = false := by simpa using hname
      cases paint? with
      | none => simpa [List.lookup_cons, hother] using hlater
      | some paint' => simpa [List.lookup_cons, hother] using hlater

theorem ofJson_ok_of_lookup {ms : Json.Members} {paints : List (String × Paint)}
    (h : ofMembers ms = .ok paints) {property : String} {j : Json}
    (hj : ms.lookup property = some j) : ∃ paint?, ofJson j = .ok paint? := by
  induction ms generalizing paints with
  | nil => cases hj
  | cons m ms ih =>
    obtain ⟨name, value⟩ := m
    obtain ⟨paint?, rest, hpaint, hrest, _⟩ := ofMembers_cons_eq_ok.mp h
    by_cases hname : property = name
    · have hvalue : value = j := by simpa [hname] using hj
      exact ⟨paint?, hvalue ▸ hpaint⟩
    · have hother : (property == name) = false := by simpa using hname
      exact ih hrest (by simpa [List.lookup_cons, hother] using hj)

/-! ## Tables that hide -/

/-- A table hides only where one of its stops, cut off to an integer, is: the value of that stop is zero,
and its zoom is the one where the table hides if it is an integer. -/
theorem table_hides_at_its_stops {ms : Json.Members} {items : List Json}
    (hitems : Json.member ms "stops" = .arr items) {paint : Paint}
    (hread : ofJson (.obj ms) = .ok (some paint)) {z : Int}
    (hhides : paint.isNonzeroAt (.int z) = false) :
    ∃ zoom value more q, .arr (zoom :: value :: more) ∈ items ∧ zoom.IsExactly q ∧ towardZero q = z ∧
      (∀ n, zoom = Json.int n → n = z) ∧ value.IsExactly 0 := by
  simp only [ofJson, hitems] at hread
  obtain ⟨table, htable, _, rfl⟩ := ofStops_eq_some.mp hread
  obtain ⟨before, item, after, rfl, _, hstop⟩ := (stops_hide_iff htable).mp hhides
  obtain ⟨zoom, value, more, q, rfl, hzoom, rfl, hlow, hhigh, hvalue⟩ := hstop
  have hsmall : |(towardZero q : Rat)| + 1 ≤ Binary64.countingLimit := by
    have hcut : towardZero q + 1 ≤ (Binary64.countingLimit : Int) := by
      have hlimits : (maxZoom : Int) + 1 ≤ Binary64.countingLimit := by decide
      omega
    rw [abs_of_nonneg (by exact_mod_cast hlow)]
    exact_mod_cast hcut
  have hexact := hzoom.isExactly hsmall
  refine ⟨zoom, value, more, q, by simp, hexact, rfl, ?_, hvalue.isExactly ?_⟩
  · rintro n rfl
    rw [Json.isExactly_int.mp hexact, towardZero_intCast]
  · rw [← Int.cast_zero, towardZero_intCast]
    decide +kernel

/-! ## Widths by zoom -/

/-- Nothing is to be seen at zoom 3 and at zoom 4.5. -/
def widthStops : List Json := [
  .arr [.int 3, .int 0], .arr [.real (.nearest false 9 2), .int 0], .arr [.int 8, .int 2]]

theorem width_hides_at_three : ∃ paint,
    ofJson (.obj [("stops", .arr widthStops)]) = .ok (some paint) ∧
    paint.isNonzeroAt (.int 3) = false ∧
    ∃ zoom value more q, .arr (zoom :: value :: more) ∈ widthStops ∧ zoom.IsExactly q ∧
      towardZero q = 3 ∧ (∀ n, zoom = Json.int n → n = 3) ∧ value.IsExactly 0 := by
  have hread : ofJson (.obj [("stops", .arr widthStops)]) =
      .ok (some (.stops [(3, .zero false), (4, .zero false), (8, .nearest false 2 1)])) := by
    decide +kernel
  have hhides : (Paint.stops [(3, .zero false), (4, .zero false), (8, .nearest false 2 1)]).isNonzeroAt
      (.int 3) = false := by decide +kernel
  exact ⟨_, hread, hhides, table_hides_at_its_stops rfl hread hhides⟩

/-- A table may hide at a zoom that is none of those written in it: it hides at 4 by the stop at 4.5. -/
theorem width_hides_between_its_stops : ∃ paint,
    ofJson (.obj [("stops", .arr widthStops)]) = .ok (some paint) ∧
    paint.isNonzeroAt (.int 4) = false ∧
    ¬ ∃ zoom value more, .arr (zoom :: value :: more) ∈ widthStops ∧ zoom.IsExactly 4 ∧
      value.IsExactly 0 := by
  refine ⟨.stops [(3, .zero false), (4, .zero false), (8, .nearest false 2 1)], by decide +kernel,
    by decide +kernel, ?_⟩
  rintro ⟨_, value, more, hmem, ⟨n, rfl, hn⟩, _⟩
  have hzooms : n = .int 3 ∨ n = .real (.nearest false 9 2) ∨ n = .int 8 := by
    simp only [widthStops, Json.int, Json.real, List.mem_cons, Json.arr.injEq, List.cons.injEq,
      Json.num.injEq, List.not_mem_nil, or_false] at hmem
    exact hmem.imp And.left (Or.imp And.left And.left)
  rcases hzooms with rfl | rfl | rfl
  · exact absurd hn (by decide +kernel)
  · exact absurd hn (by decide +kernel)
  · exact absurd hn (by decide +kernel)

end Paint

end StyledTiles
