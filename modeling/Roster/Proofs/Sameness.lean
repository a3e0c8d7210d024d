import Mathlib.Data.List.Perm.Basic
import Mathlib.Data.List.Perm.Subperm
import Roster.Json.Equality
import Roster.Proofs.ProperValues
import Roster.Proofs.Documents

/-!
What counts as the same.

Two values count as the same if they are the same text, if they are worth the same number, or if they are made in the
same way of values that count as the same; the order in which an object has its fields does not matter. This is said
here without computing anything. It is an equivalence on the values that a document can have, apart from those that are
no numbers, and the comparison of values decides it.
-/

set_option autoImplicit false

namespace Roster

open Number (Double Value)

/-! ## Lists in step -/

section Forall₂

variable {α β γ : Type} {R : α → β → Prop} {xs : List α}

theorem exists_forall₂ (h : ∀ x ∈ xs, ∃ y, R x y) : ∃ ys, List.Forall₂ R xs ys := by
  induction xs with
  | nil => exact ⟨[], .nil⟩
  | cons x rest ih =>
    rw [List.forall_mem_cons] at h
    obtain ⟨⟨y, hy⟩, hrest⟩ := h
    obtain ⟨ys, hys⟩ := ih hrest
    exact ⟨y :: ys, .cons hy hys⟩

theorem exists_of_forall₂ {ys : List β} (h : List.Forall₂ R xs ys) : ∀ x ∈ xs, ∃ y ∈ ys, R x y := by
  induction h with
  | nil => exact fun _ hx => absurd hx List.not_mem_nil
  | cons hxy _ ih =>
    refine List.forall_mem_cons.2 ⟨⟨_, List.mem_cons_self, hxy⟩, fun x hx => ?_⟩
    obtain ⟨y, hy, hr⟩ := ih x hx
    exact ⟨y, List.mem_cons_of_mem _ hy, hr⟩

theorem forall₂_congr_of_mem {S : α → β → Prop} {ys : List β} (h : ∀ x ∈ xs, ∀ y ∈ ys, R x y ↔ S x y) :
    List.Forall₂ R xs ys ↔ List.Forall₂ S xs ys := by
  rw [List.forall₂_iff_zip, List.forall₂_iff_zip]
  refine and_congr_right fun _ => ⟨fun hr x y hxy => ?_, fun hs x y hxy => ?_⟩
  · exact (h x (List.of_mem_zip hxy).1 y (List.of_mem_zip hxy).2).1 (hr hxy)
  · exact (h x (List.of_mem_zip hxy).1 y (List.of_mem_zip hxy).2).2 (hs hxy)

theorem forall₂_comp {S : β → γ → Prop} {T : α → γ → Prop} (h : ∀ x y z, R x y → S y z → T x z) {ys : List β}
    {zs : List γ} (hxy : List.Forall₂ R xs ys) (hyz : List.Forall₂ S ys zs) : List.Forall₂ T xs zs := by
  induction hxy generalizing zs with
  | nil =>
    cases hyz
    exact .nil
  | cons hx _ ih =>
    cases hyz with
    | cons hy hrest => exact .cons (h _ _ _ hx hy) (ih hrest)

end Forall₂

namespace Json

variable {a b c : Json}

/-! ## Sameness -/

/-- What a value is worth as a number: a truth value is one or zero, and a double is exactly what its bits say. -/
inductive Amounts : Json → Rat → Prop
  | bool (b : Bool) : Amounts (.bool b) (if b then 1 else 0)
  | int (n : Int) : Amounts (.int n) n
  | double {x : Double} {m : Nat} {e : Int} : x.magnitude = .finite m e →
      Amounts (.double x) (((if x.isNegative then -m else m : Int) : Rat) * 2 ^ e)

/-- Fields of one name whose values are related. -/
inductive Named (R : Json → Json → Prop) : String × Json → String × Json → Prop
  | intro (name : String) {v w : Json} : R v w → Named R (name, v) (name, w)

/-- Two values count as the same. -/
inductive Equals : Json → Json → Prop
  | null : Equals .null .null
  | str (s : String) : Equals (.str s) (.str s)
  | torn (codePoints : List Nat) : Equals (.torn codePoints) (.torn codePoints)
  | number {a b : Json} {q : Rat} : Amounts a q → Amounts b q → Equals a b
  | infinite {x y : Double} : x.magnitude = .infinite → y.magnitude = .infinite → x.isNegative = y.isNegative →
      Equals (.double x) (.double y)
  | arr {xs ys : List Json} : List.Forall₂ Equals xs ys → Equals (.arr xs) (.arr ys)
  | obj {fs gs hs : List (String × Json)} : gs.Perm hs → List.Forall₂ (Named Equals) fs hs → Equals (.obj fs) (.obj gs)

/-! ## Numbers -/

private theorem toRat_ofBool (b : Bool) : (Dyadic.ofInt (if b then 1 else 0)).toRat = if b then 1 else 0 := by
  cases b <;> exact Dyadic.toRat_intCast _

/-- The exact value that is compared is what the value is worth. -/
theorem amounts_iff {q : Rat} : Amounts a q ↔ ∃ d : Dyadic, a.value? = some (.exact d) ∧ d.toRat = q := by
  constructor
  · rintro (b | n | @⟨x, m, e, hx⟩)
    · exact ⟨_, rfl, toRat_ofBool b⟩
    · exact ⟨_, rfl, Dyadic.toRat_intCast n⟩
    · refine ⟨_, by rw [value?, Double.value, hx], ?_⟩
      rw [Dyadic.toRat_ofIntWithPrec_eq_mul_two_pow, Int.neg_neg]
  · rintro ⟨d, hd, rfl⟩
    cases a with
    | bool b =>
      cases hd
      rw [toRat_ofBool]
      exact .bool b
    | int n =>
      cases hd
      rw [show (Dyadic.ofInt n).toRat = n from Dyadic.toRat_intCast n]
      exact .int n
    | double x =>
      rw [value?, Double.value] at hd
      split at hd
      next => cases hd
      next => cases hd
      next m e hx =>
        cases hd
        rw [Dyadic.toRat_ofIntWithPrec_eq_mul_two_pow, Int.neg_neg]
        exact .double hx
    | _ => cases hd

theorem value?_eq_infinite_iff {negative : Bool} : a.value? = some (.infinite negative) ↔
    ∃ x : Double, a = .double x ∧ x.magnitude = .infinite ∧ x.isNegative = negative := by
  constructor
  · intro ha
    cases a with
    | double x =>
      rw [value?, Double.value] at ha
      split at ha
      next => cases ha
      next hx =>
        cases ha
        exact ⟨x, rfl, hx, rfl⟩
      next => cases ha
    | _ => cases ha
  · rintro ⟨x, rfl, hx, rfl⟩
    rw [value?, Double.value, hx]

/-- Numbers count as the same if they have the same value, unless they are none. -/
theorem equals_iff_of_value? {v : Value} (ha : a.value? = some v) : Equals a b ↔ v ≠ .nan ∧ b.value? = some v := by
  constructor
  · intro h
    cases h with
    | number hp hq =>
      obtain ⟨d, hd, rfl⟩ := amounts_iff.1 hp
      obtain ⟨d', hd', hsame⟩ := amounts_iff.1 hq
      rw [ha] at hd
      cases hd
      rw [hd', Dyadic.toRat_inj.1 hsame]
      exact ⟨nofun, rfl⟩
    | infinite hx hy hsign =>
      rw [value?_eq_infinite_iff.2 ⟨_, rfl, hx, rfl⟩] at ha
      cases ha
      exact ⟨nofun, value?_eq_infinite_iff.2 ⟨_, rfl, hy, hsign.symm⟩⟩
    | _ => cases ha
  · rintro ⟨hnan, hb⟩
    cases v with
    | nan => exact absurd rfl hnan
    | infinite negative =>
      obtain ⟨x, rfl, hx, hsign⟩ := value?_eq_infinite_iff.1 ha
      obtain ⟨y, rfl, hy, hsign'⟩ := value?_eq_infinite_iff.1 hb
      exact .infinite hx hy (hsign.trans hsign'.symm)
    | exact d => exact .number (amounts_iff.2 ⟨d, ha, rfl⟩) (amounts_iff.2 ⟨d, hb, rfl⟩)

theorem same_iff_of_value? {v : Value} (ha : a.value? = some v) : same a b = true ↔ b.value? = some v := by
  rw [eq_comm (a := b.value?), ← ha]
  cases a with
  | bool t => cases b <;> simp [same, value?]
  | int n => cases b <;> simp [same, value?]
  | double x => cases b <;> simp [same, value?]
  | _ => cases ha

theorem IsProper.value?_ne_nan (h : a.IsProper) : a.value? ≠ some .nan := by
  intro ha
  cases a with
  | double x =>
    rw [value?, Double.value] at ha
    split at ha
    next hx => exact h.magnitude_ne hx
    next => cases ha
    next => cases ha
  | _ => cases ha

/-! ## The comparison decides sameness -/

theorem sameItems_iff {xs ys : List Json} :
    sameItems xs ys = true ↔ List.Forall₂ (fun x y => same x y = true) xs ys := by
  induction xs generalizing ys with
  | nil =>
    cases ys with
    | nil => exact iff_of_true rfl .nil
    | cons y ys => exact iff_of_false nofun nofun
  | cons x xs ih =>
    cases ys with
    | nil => exact iff_of_false nofun nofun
    | cons y ys => rw [sameItems, Bool.and_eq_true, ih, List.forall₂_cons]

theorem sameFields_iff {fs gs : List (String × Json)} : sameFields fs gs = true ↔
    ∀ f ∈ fs, ∃ w, gs.lookup f.1 = some w ∧ same f.2 w = true := by
  induction fs with
  | nil => exact iff_of_true rfl fun _ h => absurd h List.not_mem_nil
  | cons f rest ih =>
    obtain ⟨name, v⟩ := f
    rw [sameFields, Bool.and_eq_true, List.forall_mem_cons, ih]
    refine and_congr_left fun _ => ?_
    cases gs.lookup name with
    | none => simp
    | some w => simp

theorem same_arr_iff {xs : List Json} : same (.arr xs) b = true ↔
    ∃ ys, b = .arr ys ∧ List.Forall₂ (fun x y => same x y = true) xs ys := by
  cases b <;> simp [same, value?, sameItems_iff]

theorem same_obj_iff {fs : List (String × Json)} : same (.obj fs) b = true ↔
    ∃ gs, b = .obj gs ∧ fs.length = gs.length ∧ ∀ f ∈ fs, ∃ w, gs.lookup f.1 = some w ∧ same f.2 w = true := by
  cases b <;> simp [same, value?, sameFields_iff]

theorem equals_arr_iff {xs : List Json} : Equals (.arr xs) b ↔ ∃ ys, b = .arr ys ∧ List.Forall₂ Equals xs ys := by
  constructor
  · intro h
    cases h with
    | number hp _ => cases hp
    | arr hitems => exact ⟨_, rfl, hitems⟩
  · rintro ⟨ys, rfl, hitems⟩
    exact .arr hitems

theorem equals_obj_iff {fs : List (String × Json)} : Equals (.obj fs) b ↔
    ∃ gs hs, b = .obj gs ∧ gs.Perm hs ∧ List.Forall₂ (Named Equals) fs hs := by
  constructor
  · intro h
    cases h with
    | number hp _ => cases hp
    | obj hperm hfields => exact ⟨_, _, rfl, hperm, hfields⟩
  · rintro ⟨gs, hs, rfl, hperm, hfields⟩
    exact .obj hperm hfields

theorem same_iff_eq (ha : (a.isNull || a.isText) = true) : same a b = true ↔ a = b := by
  cases a with
  | null => cases b <;> simp [same, value?]
  | str s => cases b <;> simp [same, value?]
  | torn codePoints => cases b <;> simp [same, value?]
  | _ => cases ha

theorem equals_iff_eq (ha : (a.isNull || a.isText) = true) : Equals a b ↔ a = b := by
  constructor
  · intro h
    cases h with
    | number hp _ => cases hp <;> cases ha
    | null => rfl
    | str s => rfl
    | torn codePoints => rfl
    | _ => cases ha
  · rintro rfl
    cases a with
    | null => exact .null
    | str s => exact .str s
    | torn codePoints => exact .torn codePoints
    | _ => cases ha

theorem map_fst_of_named {R : Json → Json → Prop} {fs hs : List (String × Json)}
    (h : List.Forall₂ (Named R) fs hs) : fs.map Prod.fst = hs.map Prod.fst := by
  induction h with
  | nil => rfl
  | cons hfield _ ih =>
    cases hfield
    rw [List.map_cons, List.map_cons, ih]

/-- The fields of an object that count as the same as those of another are some order of the other's. -/
private theorem exists_perm_iff {fs gs : List (String × Json)} (hfs : (fs.map Prod.fst).Nodup)
    (hgs : (gs.map Prod.fst).Nodup) :
    (fs.length = gs.length ∧ ∀ f ∈ fs, ∃ w, gs.lookup f.1 = some w ∧ Equals f.2 w) ↔
      ∃ hs, gs.Perm hs ∧ List.Forall₂ (Named Equals) fs hs := by
  constructor
  · rintro ⟨hlength, hfields⟩
    have hpartner : ∀ f ∈ fs, ∃ h, h ∈ gs ∧ Named Equals f h := by
      intro f hf
      obtain ⟨w, hw, hequals⟩ := hfields f hf
      exact ⟨(f.1, w), mem_of_lookup hw, .intro f.1 hequals⟩
    obtain ⟨hs, hstep⟩ := exists_forall₂ hpartner
    have hnamed : List.Forall₂ (Named Equals) fs hs := hstep.imp fun _ _ h => h.2
    have hnodup : hs.Nodup := by
      rw [map_fst_of_named hnamed] at hfs
      exact hfs.of_map _
    have hback : List.Forall₂ (fun h f => h ∈ gs ∧ Named Equals f h) hs fs := hstep.flip
    have hsubset : hs ⊆ gs := by
      intro h hh
      obtain ⟨f, -, hmem, -⟩ := exists_of_forall₂ hback h hh
      exact hmem
    have hcount : gs.length ≤ hs.length := Nat.le_of_eq (hlength.symm.trans hnamed.length_eq)
    exact ⟨hs, ((hnodup.subperm hsubset).perm_of_length_le hcount).symm, hnamed⟩
  · rintro ⟨hs, hperm, hnamed⟩
    refine ⟨hnamed.length_eq.trans hperm.length_eq.symm, fun f hf => ?_⟩
    obtain ⟨h, hh, hfield⟩ := exists_of_forall₂ hnamed f hf
    cases hfield with
    | intro name hequals => exact ⟨_, lookup_eq_some_of_mem hgs (hperm.mem_iff.2 hh), hequals⟩

/-- The comparison of proper values decides whether they count as the same. -/
theorem same_iff_equals (ha : a.IsProper) (hb : b.IsProper) : same a b = true ↔ Equals a b := by
  -- Numbers are compared by their values at once, and what has parts by induction on the parts of the first value.
  have hnumber {a b : Json} {v : Value} (ha : a.IsProper) (hvalue : a.value? = some v) :
      same a b = true ↔ Equals a b := by
    have hnan : v ≠ .nan := by
      rintro rfl
      exact ha.value?_ne_nan hvalue
    rw [same_iff_of_value? hvalue, equals_iff_of_value? hvalue, and_iff_right hnan]
  induction a using inductionOnParts generalizing b with
  | null => rw [same_iff_eq rfl, equals_iff_eq rfl]
  | bool t => exact hnumber ha rfl
  | int n => exact hnumber ha rfl
  | double x => exact hnumber ha rfl
  | str s => rw [same_iff_eq rfl, equals_iff_eq rfl]
  | torn codePoints => rw [same_iff_eq rfl, equals_iff_eq rfl]
  | arr xs ih =>
    rw [same_arr_iff, equals_arr_iff]
    refine exists_congr fun ys => and_congr_right ?_
    rintro rfl
    exact forall₂_congr_of_mem fun x hx y hy => ih x hx (ha.item x hx) (hb.item y hy)
  | obj fs ih =>
    rw [same_obj_iff, equals_obj_iff]
    refine exists_congr fun gs => ?_
    rw [exists_and_left]
    refine and_congr_right ?_
    rintro rfl
    rw [← exists_perm_iff ha.nodup hb.nodup]
    refine and_congr_right fun _ => forall₂_congr fun f hf => exists_congr fun w => and_congr_right fun hw => ?_
    exact ih f hf (ha.field f hf) (hb.field (f.1, w) (mem_of_lookup hw))

/-! ## Sameness is an equivalence -/

theorem IsProper.equals_self (ha : a.IsProper) : Equals a a := by
  induction a using inductionOnParts with
  | null => exact .null
  | bool t => exact .number (.bool t) (.bool t)
  | int n => exact .number (.int n) (.int n)
  | double x =>
    cases hx : x.magnitude with
    | nan => exact absurd hx ha.magnitude_ne
    | infinite => exact .infinite hx hx rfl
    | finite m e => exact .number (.double hx) (.double hx)
  | str s => exact .str s
  | torn codePoints => exact .torn codePoints
  | arr items ih => exact .arr (List.forall₂_same.2 fun item hitem => ih item hitem (ha.item item hitem))
  | obj fields ih =>
    exact .obj (.refl fields) (List.forall₂_same.2 fun f hf => .intro f.1 (ih f hf (ha.field f hf)))

theorem Equals.symm (h : Equals a b) : Equals b a := by
  have hnumber {a b : Json} {v : Value} (ha : a.value? = some v) (h : Equals a b) : Equals b a := by
    obtain ⟨hnan, hb⟩ := (equals_iff_of_value? ha).1 h
    exact (equals_iff_of_value? hb).2 ⟨hnan, ha⟩
  induction a using inductionOnParts generalizing b with
  | null =>
    obtain rfl := (equals_iff_eq rfl).1 h
    exact h
  | bool t => exact hnumber rfl h
  | int n => exact hnumber rfl h
  | double x => exact hnumber rfl h
  | str s =>
    obtain rfl := (equals_iff_eq rfl).1 h
    exact h
  | torn codePoints =>
    obtain rfl := (equals_iff_eq rfl).1 h
    exact h
  | arr xs ih =>
    obtain ⟨ys, rfl, hitems⟩ := equals_arr_iff.1 h
    have hback : List.Forall₂ (fun x y => Equals y x) xs ys :=
      ((List.forall₂_and_left _ _).2 ⟨fun x hx => @ih x hx, hitems⟩).imp fun _ _ h => h.1 h.2
    exact .arr hback.flip
  | obj fs ih =>
    obtain ⟨gs, hs, rfl, hperm, hfields⟩ := equals_obj_iff.1 h
    have hback : List.Forall₂ (fun f h => Named Equals h f) fs hs := by
      refine ((List.forall₂_and_left _ _).2 ⟨fun f hf => @ih f hf, hfields⟩).imp ?_
      rintro _ _ ⟨hsymm, ⟨name, hequals⟩⟩
      exact .intro name (hsymm hequals)
    obtain ⟨fs', hfields', hperm'⟩ := List.perm_comp_forall₂ hperm hback.flip
    exact .obj hperm'.symm hfields'

theorem Equals.trans (hab : Equals a b) (hbc : Equals b c) : Equals a c := by
  have hnumber {a b c : Json} {v : Value} (ha : a.value? = some v) (hab : Equals a b) (hbc : Equals b c) :
      Equals a c := by
    obtain ⟨hnan, hb⟩ := (equals_iff_of_value? ha).1 hab
    exact (equals_iff_of_value? ha).2 ((equals_iff_of_value? hb).1 hbc)
  induction a using inductionOnParts generalizing b c with
  | null =>
    obtain rfl := (equals_iff_eq rfl).1 hab
    exact hbc
  | bool t => exact hnumber rfl hab hbc
  | int n => exact hnumber rfl hab hbc
  | double x => exact hnumber rfl hab hbc
  | str s =>
    obtain rfl := (equals_iff_eq rfl).1 hab
    exact hbc
  | torn codePoints =>
    obtain rfl := (equals_iff_eq rfl).1 hab
    exact hbc
  | arr xs ih =>
    obtain ⟨ys, rfl, hxy⟩ := equals_arr_iff.1 hab
    obtain ⟨zs, rfl, hyz⟩ := equals_arr_iff.1 hbc
    have hstep := (List.forall₂_and_left _ _).2 ⟨fun x hx => @ih x hx, hxy⟩
    exact .arr (forall₂_comp (fun _ _ _ hx hy => hx.1 hx.2 hy) hstep hyz)
  | obj fs ih =>
    obtain ⟨gs, hs, rfl, hperm, hfh⟩ := equals_obj_iff.1 hab
    obtain ⟨ks, ls, rfl, hperm', hgl⟩ := equals_obj_iff.1 hbc
    obtain ⟨ms, hhm, hml⟩ := List.perm_comp_forall₂ hperm.symm hgl
    have hstep := (List.forall₂_and_left _ _).2 ⟨fun f hf => @ih f hf, hfh⟩
    refine .obj (hperm'.trans hml.symm) (forall₂_comp ?_ hstep hhm)
    rintro _ _ _ ⟨htrans, ⟨name, hfirst⟩⟩ ⟨_, hsecond⟩
    exact .intro name (htrans hfirst hsecond)

end Json

end Roster
