import Mathlib.Logic.Relation
import GatedLog.Proofs.Environment
import GatedLog.Proofs.Mask
import GatedLog.Proofs.Text.Utf8

/-!
# Values of the variables

What the values of the two variables come to, apart from the way in which they are read: the gate
that they give (`apply_eq_ok_iff`), and the fault that is blamed on one of them
(`apply_eq_error_iff`). The first value that cannot be used decides, and in a list the leftmost
entry that names no component. A list gives the set of what it names, so that lists with the same
entries are the same value (`apply_listed_eq_ok_iff`).
-/

namespace GatedLog

/-! ### Lists that are read up to the first fault -/

section Traversal

variable {α β ε : Type} {f : α → Except ε β}

/-- Every entry is read, each by itself. -/
theorem mapM_eq_ok_iff {l : List α} {ys : List β} : l.mapM f = .ok ys ↔ l.map f = ys.map .ok := by
  induction l generalizing ys with
  | nil =>
    constructor
    · intro h
      obtain rfl := Except.ok.inj h
      rfl
    · intro h
      obtain rfl := List.map_eq_nil_iff.mp h.symm
      rfl
  | cons x l ih =>
    rw [List.mapM_cons, List.map_cons, eq_comm (b := ys.map _), List.map_eq_cons_iff]
    constructor
    · intro h
      cases hx : f x with
      | error e => rw [hx] at h; cases h
      | ok y =>
        cases hl : l.mapM f with
        | error e => rw [hx, hl] at h; cases h
        | ok zs =>
          rw [hx, hl] at h
          exact ⟨y, zs, (Except.ok.inj h).symm, rfl, (ih.mp hl).symm⟩
    · rintro ⟨y, zs, rfl, hx, hzs⟩
      rw [← hx, ih.mpr hzs.symm]
      rfl

theorem mem_of_mapM {l : List α} {ys : List β} (h : l.mapM f = .ok ys) {y : β} :
    y ∈ ys ↔ ∃ x ∈ l, f x = .ok y := by
  have hmem : .ok y ∈ l.map f ↔ .ok y ∈ ys.map (Except.ok (ε := ε)) := by rw [mapM_eq_ok_iff.mp h]
  simpa using hmem.symm

/-- A fault is that of the leftmost entry that is not read. -/
theorem mapM_eq_error_iff {l : List α} {e : ε} :
    l.mapM f = .error e ↔ ∃ before x after, l = before ++ x :: after ∧
      (∀ y ∈ before, ∃ z, f y = .ok z) ∧ f x = .error e := by
  induction l with
  | nil =>
    constructor
    · intro h
      cases h
    · rintro ⟨before, x, after, h, -⟩
      cases before <;> cases h
  | cons y l ih =>
    rw [List.mapM_cons]
    cases hy : f y with
    | error e' =>
      constructor
      · intro h
        obtain rfl := Except.error.inj h
        exact ⟨[], y, l, rfl, by simp, hy⟩
      · rintro ⟨before, x, after, hl, hbefore, hx⟩
        cases before with
        | nil =>
          obtain ⟨rfl, -⟩ := List.cons.inj hl
          rw [hy] at hx
          obtain rfl := Except.error.inj hx
          rfl
        | cons z before =>
          obtain ⟨rfl, -⟩ := List.cons.inj hl
          obtain ⟨z, hz⟩ := hbefore y (List.mem_cons_self ..)
          rw [hy] at hz
          cases hz
    | ok z =>
      have hrest : (l.mapM f).map (z :: ·) = .error e ↔ l.mapM f = .error e := by
        cases l.mapM f <;> simp [Except.map]
      refine (hrest.trans ih).trans ⟨?_, ?_⟩
      · rintro ⟨before, x, after, rfl, hbefore, hx⟩
        exact ⟨y :: before, x, after, rfl, List.forall_mem_cons.mpr ⟨⟨z, hy⟩, hbefore⟩, hx⟩
      · rintro ⟨before, x, after, hl, hbefore, hx⟩
        cases before with
        | nil =>
          obtain ⟨rfl, -⟩ := List.cons.inj hl
          rw [hy] at hx
          cases hx
        | cons y' before =>
          obtain ⟨-, rfl⟩ := List.cons.inj hl
          exact ⟨before, x, after, rfl, (List.forall_mem_cons.mp hbefore).2, hx⟩

theorem exists_mapM_eq_ok_iff {l : List α} :
    (∃ ys, l.mapM f = .ok ys) ↔ ∀ x ∈ l, ∃ y, f x = .ok y := by
  constructor
  · rintro ⟨ys, h⟩ x hx
    have hfx : f x ∈ ys.map Except.ok := mapM_eq_ok_iff.mp h ▸ List.mem_map_of_mem hx
    obtain ⟨y, -, hy⟩ := List.mem_map.mp hfx
    exact ⟨y, hy.symm⟩
  · intro h
    cases hl : l.mapM f with
    | ok ys => exact ⟨ys, rfl⟩
    | error e =>
      obtain ⟨before, x, after, rfl, -, hx⟩ := mapM_eq_error_iff.mp hl
      obtain ⟨y, hy⟩ := h x (List.mem_append_right _ (List.mem_cons_self ..))
      rw [hx] at hy
      cases hy

end Traversal

/-- A rejected severity is shown as it was given, blank ends included, or as the code that it is. -/
theorem Severity.rejection_of_read {text : String} {why : Rejection} (h : read text = .error why) :
    why = .unknownSeverity text ∨
      ∃ n, Text.readInt32 (Text.trim text.toList) = some n ∧ why = .severityCode n := by
  simp only [read] at h
  split at h
  · next n hn =>
    right
    unfold ofCode at h
    split at h
    · cases h
    · obtain rfl := Except.error.inj h
      exact ⟨n, hn, rfl⟩
  · left
    split at h
    · cases h
    · exact (Except.error.inj h).symm

/-- A rejected component is shown as it was given. -/
theorem Component.rejection_of_read {text : String} {why : Rejection} (h : read text = .error why) :
    why = .unknownComponent text := by
  simp only [read] at h
  split at h
  · cases h
  · exact (Except.error.inj h).symm

namespace Environment

/-! ### Lists of components -/

/-- A list names a component in one of its entries. -/
def Names (text : String) (k : Component) : Prop := ∃ x ∈ entries text, Component.read x = .ok k

/-- Every entry of a list names a component. -/
def AllName (text : String) : Prop := ∀ x ∈ entries text, ∃ k, Component.read x = .ok k

theorem entries_eq (text : String) :
    entries text = (((text.toList.splitOn ',').map Text.trim).filter fun p => !p.isEmpty).map
      String.ofList := by
  rw [entries, pieces_eq_splitOn]

theorem mem_entries {text x : String} :
    x ∈ entries text ↔
      x.toList ≠ [] ∧ ∃ p ∈ text.toList.splitOn ',', Text.trim p = x.toList := by
  rw [entries_eq]
  simp only [List.mem_map, List.mem_filter, Bool.not_eq_true', List.isEmpty_eq_false_iff]
  constructor
  · rintro ⟨_, ⟨⟨p, hp, rfl⟩, hne⟩, rfl⟩
    rw [String.toList_ofList]
    exact ⟨hne, p, hp, rfl⟩
  · rintro ⟨hne, p, hp, hx⟩
    exact ⟨x.toList, ⟨⟨p, hp, hx⟩, hne⟩, String.ofList_toList⟩

/-- A list of blank entries has none. -/
theorem entries_eq_nil_iff {text : String} :
    entries text = [] ↔ ∀ p ∈ text.toList.splitOn ',', Text.Blank p := by
  rw [entries_eq]
  simp [Text.trim_eq_nil_iff]

/-! ### One value -/

/-- The gate after the value of a level. -/
def afterLevel (g : Gate) : Option String → Except EnvironmentFault Gate
  | none => .ok g
  | some text => (blame .level (Severity.read text)).map g.setThreshold

/-- The gate after the value of a list of components. -/
def afterComponents (g : Gate) : Option String → Except EnvironmentFault Gate
  | none => .ok g
  | some text =>
    (blame .components (readComponents text)).map fun ks => g.setMask (ComponentMask.ofList ks)

theorem apply_eq (g : Gate) (level components : Option String) :
    apply g level components = (afterLevel g level).bind (afterComponents · components) := by
  cases level <;> cases components <;> rfl

/-- A threshold after the value of a level, and the one before. -/
def GivesThreshold (before after : Severity) : Option String → Prop
  | none => after = before
  | some text => Severity.read text = .ok after

/-- A set after the value of a list, and the one before: it has the bits of the components that the
list names, and no others. -/
def GivesMask (before after : ComponentMask) : Option String → Prop
  | none => after = before
  | some text => AllName text ∧ ∀ i, after.has i = true ↔ ∃ k, Names text k ∧ k.position = i

/-- The fault that is blamed on a value: that of the level, or else that of the leftmost entry of the
list which names no component. -/
inductive Blames : Option String → Option String → EnvironmentFault → Prop
  | level {text : String} {components : Option String} {why : Rejection}
    (h : Severity.read text = .error why) :
    Blames (some text) components ⟨.level, .rejected why⟩
  | entry {level : Option String} {text x : String} {left right : List String} {why : Rejection}
    (hlevel : ∀ t ∈ level, ∃ s, Severity.read t = .ok s) (htext : entries text = left ++ x :: right)
    (hleft : ∀ y ∈ left, ∃ k, Component.read y = .ok k) (h : Component.read x = .error why) :
    Blames level (some text) ⟨.components, .rejected why⟩

variable {g g' : Gate} {level components : Option String} {e : EnvironmentFault}

theorem blame_map_eq_ok_iff {α β : Type} {v : Variable} {r : Except Rejection α} {f : α → β} {b : β} :
    (blame v r).map f = .ok b ↔ ∃ a, r = .ok a ∧ f a = b := by
  cases r <;> simp [blame, Except.map]

theorem blame_map_eq_error_iff {α β : Type} {v : Variable} {r : Except Rejection α} {f : α → β} :
    (blame v r).map f = .error e ↔ ∃ why, r = .error why ∧ ⟨v, .rejected why⟩ = e := by
  cases r <;> simp [blame, Except.map]

theorem afterLevel_eq_ok_iff :
    afterLevel g level = .ok g' ↔
      GivesThreshold g.threshold g'.threshold level ∧ g'.mask = g.mask := by
  cases level with
  | none =>
    rw [afterLevel, Except.ok.injEq, Gate.eq_iff, GivesThreshold]
    exact and_congr eq_comm eq_comm
  | some text =>
    rw [afterLevel, blame_map_eq_ok_iff, GivesThreshold]
    constructor
    · rintro ⟨s, hs, rfl⟩
      exact ⟨hs, rfl⟩
    · rintro ⟨hs, hm⟩
      exact ⟨g'.threshold, hs, Gate.eq_iff.mpr ⟨rfl, hm.symm⟩⟩

theorem afterLevel_eq_error_iff :
    afterLevel g level = .error e ↔
      ∃ text why, level = some text ∧ Severity.read text = .error why ∧ ⟨.level, .rejected why⟩ = e := by
  cases level with
  | none => simp [afterLevel]
  | some text =>
    rw [afterLevel, blame_map_eq_error_iff]
    simp

/-- The set of what is read from a list has the bits of the components it names. -/
theorem has_ofList_of_readComponents {text : String} {ks : List Component}
    (h : readComponents text = .ok ks) (i : Nat) :
    (ComponentMask.ofList ks).has i = true ↔ ∃ k, Names text k ∧ k.position = i := by
  simp only [ComponentMask.has_ofList, mem_of_mapM h, Names]

theorem afterComponents_eq_ok_iff :
    afterComponents g components = .ok g' ↔
      g'.threshold = g.threshold ∧ GivesMask g.mask g'.mask components := by
  cases components with
  | none =>
    rw [afterComponents, Except.ok.injEq, Gate.eq_iff, GivesMask]
    exact and_congr eq_comm eq_comm
  | some text =>
    rw [afterComponents, blame_map_eq_ok_iff, GivesMask]
    constructor
    · rintro ⟨ks, hks, rfl⟩
      exact ⟨rfl, exists_mapM_eq_ok_iff.mp ⟨ks, hks⟩, has_ofList_of_readComponents hks⟩
    · rintro ⟨hthreshold, hall, hbits⟩
      obtain ⟨ks, hks⟩ := exists_mapM_eq_ok_iff.mpr hall
      refine ⟨ks, hks, Gate.eq_iff.mpr ⟨hthreshold.symm, ComponentMask.eq_of_has fun i _ => ?_⟩⟩
      rw [Bool.eq_iff_iff, hbits]
      exact has_ofList_of_readComponents hks i

theorem afterComponents_eq_error_iff :
    afterComponents g components = .error e ↔
      ∃ text left x right why, components = some text ∧ entries text = left ++ x :: right ∧
        (∀ y ∈ left, ∃ k, Component.read y = .ok k) ∧ Component.read x = .error why ∧
        ⟨.components, .rejected why⟩ = e := by
  cases components with
  | none => simp [afterComponents]
  | some text =>
    rw [afterComponents, blame_map_eq_error_iff]
    simp only [readComponents, mapM_eq_error_iff, Option.some.injEq]
    constructor
    · rintro ⟨why, ⟨left, x, right, htext, hleft, hx⟩, he⟩
      exact ⟨text, left, x, right, why, rfl, htext, hleft, hx, he⟩
    · rintro ⟨_, left, x, right, why, rfl, htext, hleft, hx, he⟩
      exact ⟨why, ⟨left, x, right, htext, hleft, hx⟩, he⟩

/-! ### Both values -/

/-- The values are accepted, and give a gate, for a threshold and a set that they give. -/
theorem apply_eq_ok_iff :
    apply g level components = .ok g' ↔
      GivesThreshold g.threshold g'.threshold level ∧ GivesMask g.mask g'.mask components := by
  rw [apply_eq]
  constructor
  · intro h
    cases hlevel : afterLevel g level with
    | error e => rw [hlevel] at h; cases h
    | ok mid =>
      rw [hlevel] at h
      obtain ⟨hthreshold, hmask⟩ := afterLevel_eq_ok_iff.mp hlevel
      obtain ⟨hkept, hgives⟩ := afterComponents_eq_ok_iff.mp h
      exact ⟨hkept ▸ hthreshold, hmask ▸ hgives⟩
  · rintro ⟨hthreshold, hgives⟩
    have hlevel : afterLevel g level = .ok ⟨g.mask, g'.threshold⟩ :=
      afterLevel_eq_ok_iff.mpr ⟨hthreshold, rfl⟩
    rw [hlevel]
    exact afterComponents_eq_ok_iff.mpr ⟨rfl, hgives⟩

/-- The values are refused for the fault that is blamed on one of them. -/
theorem apply_eq_error_iff : apply g level components = .error e ↔ Blames level components e := by
  rw [apply_eq]
  constructor
  · intro h
    cases hlevel : afterLevel g level with
    | error e' =>
      rw [hlevel] at h
      obtain rfl := Except.error.inj h
      obtain ⟨text, why, rfl, hread, rfl⟩ := afterLevel_eq_error_iff.mp hlevel
      exact .level hread
    | ok mid =>
      rw [hlevel] at h
      obtain ⟨text, left, x, right, why, rfl, htext, hleft, hx, rfl⟩ :=
        afterComponents_eq_error_iff.mp h
      refine .entry (fun t ht => ?_) htext hleft hx
      obtain rfl : level = some t := ht
      exact ⟨_, (afterLevel_eq_ok_iff.mp hlevel).1⟩
  · intro h
    cases h with
    | level hread =>
      rw [afterLevel_eq_error_iff.mpr ⟨_, _, rfl, hread, rfl⟩]
      rfl
    | entry hlevel htext hleft hx =>
      cases hl : afterLevel g level with
      | error e' =>
        obtain ⟨text, why, rfl, hread, -⟩ := afterLevel_eq_error_iff.mp hl
        obtain ⟨s, hs⟩ := hlevel text rfl
        rw [hread] at hs
        cases hs
      | ok mid =>
        exact afterComponents_eq_error_iff.mpr ⟨_, _, _, _, _, rfl, htext, hleft, hx, rfl⟩

/-- The leftmost entry that names no component is shown, trimmed. -/
example : apply {} (some " 3") (some "rpc,, name node ,x") =
    .error ⟨.components, .rejected (.unknownComponent "name node")⟩ := by decide +kernel

theorem exists_apply_eq_ok_iff :
    (∃ g', apply g level components = .ok g') ↔
      (∀ text ∈ level, ∃ s, Severity.read text = .ok s) ∧ ∀ text ∈ components, AllName text := by
  constructor
  · rintro ⟨g', h⟩
    obtain ⟨hthreshold, hmask⟩ := apply_eq_ok_iff.mp h
    refine ⟨fun text ht => ?_, fun text ht => ?_⟩
    · obtain rfl : level = some text := ht
      exact ⟨_, hthreshold⟩
    · obtain rfl : components = some text := ht
      exact hmask.1
  · rintro ⟨hlevel, hall⟩
    cases h : apply g level components with
    | ok g' => exact ⟨g', rfl⟩
    | error e =>
      -- what is blamed could be read
      cases apply_eq_error_iff.mp h with
      | level hread =>
        obtain ⟨s, hs⟩ := hlevel _ rfl
        rw [hread] at hs
        cases hs
      | entry _ htext _ hx =>
        obtain ⟨k, hk⟩ := hall _ rfl _ (htext ▸ List.mem_append_right _ (List.mem_cons_self ..))
        rw [hx] at hk
        cases hk

/-- The set of a list of blank entries is empty. -/
theorem bits_eq_zero_of_blank {text : String} {m : ComponentMask}
    (hblank : ∀ p ∈ text.toList.splitOn ',', Text.Blank p)
    (hbits : ∀ i, m.has i = true ↔ ∃ k, Names text k ∧ k.position = i) : m.bits = 0 := by
  have hempty : m = .empty := by
    refine ComponentMask.eq_of_has fun i _ => ?_
    rw [Bool.eq_iff_iff, hbits]
    simp [Names, entries_eq_nil_iff.mpr hblank]
  rw [hempty]
  rfl

/-! ### Lists with the same entries -/

/-- The list of some entries, with a comma between each and the next. -/
def listed (ps : List (List Char)) : String := String.ofList ([','].intercalate ps)

/-- A change of the entries of a list that makes no difference to what it names. -/
inductive Change : List (List Char) → List (List Char) → Prop
  | order {ps qs : List (List Char)} (h : ps.Perm qs) : Change ps qs
  | again {p : List Char} {ps : List (List Char)} (h : p ∈ ps) : Change ps (p :: ps)
  | blank {p : List Char} {ps : List (List Char)} (h : Text.Blank p) : Change ps (p :: ps)
  | space {l p r : List Char} {ps : List (List Char)} (hl : Text.Blank l) (hr : Text.Blank r) :
    Change (p :: ps) ((l ++ p ++ r) :: ps)

/-- Entries of which some come from the others by such changes, made or taken back. -/
def Rearranged : List (List Char) → List (List Char) → Prop := Relation.EqvGen Change

variable {ps qs : List (List Char)}

theorem mem_entries_listed (h : ∀ p ∈ ps, ',' ∉ p) {x : String} :
    x ∈ entries (listed ps) ↔ x.toList ≠ [] ∧ x.toList ∈ ps.map Text.trim := by
  rw [mem_entries, listed, String.toList_ofList, ← List.mem_map]
  cases ps with
  | nil => simp
  | cons p ps => rw [List.splitOn_intercalate ',' h (List.cons_ne_nil p ps)]

theorem Change.mem_trim_iff (h : Change ps qs) {cs : List Char} (hcs : cs ≠ []) :
    cs ∈ ps.map Text.trim ↔ cs ∈ qs.map Text.trim := by
  cases h with
  | order h => exact (h.map Text.trim).mem_iff
  | again h =>
    rw [List.map_cons, List.mem_cons]
    exact ⟨.inr, fun hmem => hmem.elim (fun he => he ▸ List.mem_map_of_mem h) id⟩
  | blank h =>
    rw [List.map_cons, List.mem_cons, Text.trim_eq_nil_iff.mpr h]
    exact ⟨.inr, fun hmem => hmem.elim (fun he => absurd he hcs) id⟩
  | space hl hr => rw [List.map_cons, List.map_cons, Text.trim_padded hl hr]

theorem Rearranged.mem_trim_iff (h : Rearranged ps qs) {cs : List Char} (hcs : cs ≠ []) :
    cs ∈ ps.map Text.trim ↔ cs ∈ qs.map Text.trim := by
  induction h with
  | rel ps qs h => exact h.mem_trim_iff hcs
  | refl ps => exact Iff.rfl
  | symm ps qs h ih => exact ih.symm
  | trans ps qs rs h h' ih ih' => exact ih.trans ih'

/-- What a list gives depends on the set of its entries alone. -/
theorem givesMask_congr {text text' : String} (h : ∀ x, x ∈ entries text ↔ x ∈ entries text')
    (before after : ComponentMask) :
    GivesMask before after (some text) ↔ GivesMask before after (some text') := by
  simp only [GivesMask, AllName, Names, h]

/-- Neither the order of the entries, nor repetitions, nor blank entries, nor white space around
them make a difference. -/
theorem apply_listed_eq_ok_iff (hps : ∀ p ∈ ps, ',' ∉ p) (hqs : ∀ q ∈ qs, ',' ∉ q)
    (h : Rearranged ps qs) :
    apply g level (some (listed ps)) = .ok g' ↔ apply g level (some (listed qs)) = .ok g' := by
  have hentries : ∀ x, x ∈ entries (listed ps) ↔ x ∈ entries (listed qs) := fun x => by
    rw [mem_entries_listed hps, mem_entries_listed hqs]
    exact and_congr_right fun hx => h.mem_trim_iff hx
  rw [apply_eq_ok_iff, apply_eq_ok_iff, givesMask_congr hentries]

/-! ### Octets of the variables -/

/-- The octets of a text are read as this text. -/
theorem decodeVariable_encode (v : Variable) (text : Option String) :
    decodeVariable v (text.map Text.Utf8.encode) = .ok text := by
  cases text with
  | none => rfl
  | some text => rw [Option.map_some, decodeVariable, Text.Utf8.decode?_eq_some_iff.mpr rfl]

theorem decodeVariable_of_not_text {octets : List UInt8} (h : ∀ text, Text.Utf8.encode text ≠ octets)
    (v : Variable) : decodeVariable v (some octets) = .error ⟨v, .notUnicode⟩ := by
  rw [decodeVariable, Text.Utf8.decode?_eq_none_iff.mpr h]

theorem applyOctets_encode (g : Gate) (level components : Option String) :
    applyOctets g (level.map Text.Utf8.encode) (components.map Text.Utf8.encode) =
      apply g level components := by
  rw [applyOctets, decodeVariable_encode, decodeVariable_encode]
  rfl

theorem applyOctets_of_level {octets : List UInt8} (h : ∀ text, Text.Utf8.encode text ≠ octets)
    (g : Gate) (components : Option (List UInt8)) :
    applyOctets g (some octets) components = .error ⟨.level, .notUnicode⟩ := by
  rw [applyOctets, decodeVariable_of_not_text h]
  rfl

/-- Octets that are no text are found before the level is read. -/
theorem applyOctets_of_components {octets : List UInt8}
    (h : ∀ text, Text.Utf8.encode text ≠ octets) (g : Gate) (level : Option String) :
    applyOctets g (level.map Text.Utf8.encode) (some octets) =
      .error ⟨.components, .notUnicode⟩ := by
  rw [applyOctets, decodeVariable_encode, decodeVariable_of_not_text h]
  rfl

end Environment

end GatedLog
