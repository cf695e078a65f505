import Mathlib.Data.List.Forall2
import Solverr.Lib.Json

/-!
# Values that differ where a policy allows

A `Policy` walks a JSON value from the top: it has a place for every field and
item, and says at each place what a leaf may be exchanged for. `Changed P p a b`:
`b` is `a` with leaves exchanged as `P` allows.

A rendering works part by part, in the places of a second policy, the mask. If it
tells two leaves apart exactly where the mask says so, wherever the first policy
lets them differ, then it does so for whole values (`Hides.exact`): that turns a
two-run statement about all shapes into one about pairs of leaves.
-/

namespace Solverr.Lib

/-- A policy over the places of a JSON value. -/
structure Policy where
  Place : Type
  field : Place → Str → Place
  item : Place → Place
  leaf : Place → Json → Json → Prop

mutual

/-- The values differ only in leaves, as the policy allows. -/
inductive Changed (P : Policy) : P.Place → Json → Json → Prop
  | same {p : P.Place} (v : Json) : Changed P p v v
  | leaf {p : P.Place} {a b : Json} (ha : a.isLeaf = true) (hb : b.isLeaf = true)
      (allowed : P.leaf p a b) : Changed P p a b
  | list {p : P.Place} {xs ys : List Json} (items : ChangedItems P (P.item p) xs ys) :
      Changed P p (.list xs) (.list ys)
  | obj {p : P.Place} {fs gs : List (Str × Json)} (fields : ChangedFields P p fs gs) :
      Changed P p (.obj fs) (.obj gs)

inductive ChangedItems (P : Policy) : P.Place → List Json → List Json → Prop
  | nil {p : P.Place} : ChangedItems P p [] []
  | cons {p : P.Place} {x y : Json} {xs ys : List Json} (head : Changed P p x y)
      (tail : ChangedItems P p xs ys) : ChangedItems P p (x :: xs) (y :: ys)

inductive ChangedFields (P : Policy) : P.Place → List (Str × Json) → List (Str × Json) → Prop
  | nil {p : P.Place} : ChangedFields P p [] []
  | cons {p : P.Place} {k : Str} {a b : Json} {fs gs : List (Str × Json)}
      (head : Changed P (P.field p k) a b) (tail : ChangedFields P p fs gs) :
      ChangedFields P p ((k, a) :: fs) ((k, b) :: gs)

end

section Rules

variable {P : Policy} {p : P.Place}

theorem ChangedItems.refl : ∀ xs : List Json, ChangedItems P p xs xs
  | [] => .nil
  | x :: xs => .cons (.same x) (refl xs)

theorem ChangedFields.refl : ∀ fs : List (Str × Json), ChangedFields P p fs fs
  | [] => .nil
  | (_, v) :: fs => .cons (.same v) (refl fs)

theorem ChangedItems.length_eq : ∀ {xs ys : List Json}, ChangedItems P p xs ys →
    xs.length = ys.length
  | [], _, .nil => rfl
  | _ :: _, _, .cons _ tail => congrArg (· + 1) tail.length_eq

theorem ChangedFields.keys_eq : ∀ {fs gs : List (Str × Json)}, ChangedFields P p fs gs →
    fs.map Prod.fst = gs.map Prod.fst
  | [], _, .nil => rfl
  | (k, _) :: _, _, .cons _ tail => congrArg (k :: ·) tail.keys_eq

theorem changed_list {xs ys : List Json} :
    Changed P p (.list xs) (.list ys) ↔ ChangedItems P (P.item p) xs ys := by
  refine ⟨fun h => ?_, .list⟩
  cases h with
  | same => exact .refl xs
  | leaf ha => cases ha
  | list items => exact items

theorem changed_obj {fs gs : List (Str × Json)} :
    Changed P p (.obj fs) (.obj gs) ↔ ChangedFields P p fs gs := by
  refine ⟨fun h => ?_, .obj⟩
  cases h with
  | same => exact .refl fs
  | leaf ha => cases ha
  | obj fields => exact fields

theorem changed_leaf {a b : Json} (ha : a.isLeaf = true) (hb : b.isLeaf = true) :
    Changed P p a b ↔ a = b ∨ P.leaf p a b := by
  constructor
  · intro h
    cases h with
    | same => exact .inl rfl
    | leaf _ _ allowed => exact .inr allowed
    | list => cases ha
    | obj => cases ha
  · rintro (rfl | allowed)
    · exact .same a
    · exact .leaf ha hb allowed

end Rules

/-! ## Renderings -/

/-- A rendering, beside what may differ (`secret`) and what it does not show (`mask`).
`Meets` are the places of the two policies that lie on one walk. A list or an object
is either rendered part by part or replaced, whatever its parts are; and two leaves
that may differ are shown the same exactly where the mask says so. -/
structure Hides (secret mask : Policy) (shows : mask.Place → Json → Json)
    (Meets : secret.Place → mask.Place → Prop) : Prop where
  field : ∀ {s : secret.Place} {m : mask.Place} (k : Str), Meets s m →
    Meets (secret.field s k) (mask.field m k)
  item : ∀ {s : secret.Place} {m : mask.Place}, Meets s m →
    Meets (secret.item s) (mask.item m)
  list : ∀ m : mask.Place,
    (∀ xs, shows m (.list xs) = .list (xs.map (shows (mask.item m)))) ∨
    (∀ xs ys, xs.length = ys.length → shows m (.list xs) = shows m (.list ys)) ∧
      ∀ x y, shows (mask.item m) x = shows (mask.item m) y
  obj : ∀ m : mask.Place,
    (∀ fs, shows m (.obj fs) = .obj (fs.map fun f => (f.1, shows (mask.field m f.1) f.2))) ∨
    (∀ fs gs, fs.length = gs.length → shows m (.obj fs) = shows m (.obj gs)) ∧
      ∀ k x y, shows (mask.field m k) x = shows (mask.field m k) y
  leaf : ∀ {s : secret.Place} {m : mask.Place} {a b : Json}, Meets s m → a.isLeaf = true →
    b.isLeaf = true → secret.leaf s a b → (shows m a = shows m b ↔ a = b ∨ mask.leaf m a b)

section Exact

variable {secret mask : Policy} {shows : mask.Place → Json → Json}
  {Meets : secret.Place → mask.Place → Prop}

theorem forall₂_of_length {α β : Type} {R : α → β → Prop} (h : ∀ a b, R a b) :
    ∀ {xs : List α} {ys : List β}, xs.length = ys.length → List.Forall₂ R xs ys
  | [], [], _ => .nil
  | x :: _, y :: _, hlen => .cons (h x y) (forall₂_of_length h (Nat.succ.inj hlen))

/-- Lists are shown the same where their items are. -/
theorem Hides.list_iff (H : Hides secret mask shows Meets) (m : mask.Place) {xs ys : List Json}
    (hlen : xs.length = ys.length) : shows m (.list xs) = shows m (.list ys) ↔
      List.Forall₂ (fun x y => shows (mask.item m) x = shows (mask.item m) y) xs ys := by
  rcases H.list m with hmap | ⟨hsame, hitem⟩
  · rw [hmap, hmap, Json.list.injEq, ← List.forall₂_eq_eq_eq, List.forall₂_map_left_iff,
      List.forall₂_map_right_iff]
  · exact iff_of_true (hsame xs ys hlen) (forall₂_of_length hitem hlen)

/-- Objects with the same keys are shown the same where their values are. -/
theorem Hides.obj_iff (H : Hides secret mask shows Meets) (m : mask.Place) :
    ∀ {fs gs : List (Str × Json)}, fs.map Prod.fst = gs.map Prod.fst →
      (shows m (.obj fs) = shows m (.obj gs) ↔ List.Forall₂ (fun f g =>
        shows (mask.field m f.1) f.2 = shows (mask.field m g.1) g.2) fs gs) := by
  intro fs gs hkeys
  have hpairs : List.Forall₂ (fun f g : Str × Json => f.1 = g.1) fs gs := by
    rwa [← List.forall₂_eq_eq_eq, List.forall₂_map_left_iff, List.forall₂_map_right_iff] at hkeys
  rcases H.obj m with hmap | ⟨hsame, hfield⟩
  · rw [hmap, hmap, Json.obj.injEq]
    clear hkeys
    induction hpairs with
    | nil => exact iff_of_true rfl .nil
    | cons hkey _ ih =>
      rw [List.map_cons, List.map_cons, List.cons.injEq, List.forall₂_cons, Prod.mk.injEq]
      exact and_congr (and_iff_right hkey) ih
  · refine iff_of_true (hsame fs gs hpairs.length_eq) (hpairs.imp fun f g hkey => ?_)
    rw [hkey]
    exact hfield g.1 f.2 g.2

theorem Hides.exact_leaf (H : Hides secret mask shows Meets) {a b : Json} {s : secret.Place}
    {m : mask.Place} (ha : a.isLeaf = true) (hmeet : Meets s m) (h : Changed secret s a b) :
    shows m a = shows m b ↔ Changed mask m a b := by
  cases h with
  | same => exact iff_of_true rfl (.same _)
  | leaf _ hb allowed => exact (H.leaf hmeet ha hb allowed).trans (changed_leaf ha hb).symm
  | list => cases ha
  | obj => cases ha

mutual

/-- **Exactness.** What is exact on leaves is exact. -/
theorem Hides.exact (H : Hides secret mask shows Meets) : ∀ (a : Json) {b : Json}
    {s : secret.Place} {m : mask.Place}, Meets s m → Changed secret s a b →
    (shows m a = shows m b ↔ Changed mask m a b)
  | .list xs, _, _, m, hmeet, h => by
    cases h with
    | same => exact iff_of_true rfl (.same _)
    | leaf ha => cases ha
    | list items =>
      rw [H.list_iff m items.length_eq, changed_list]
      exact H.exact_items xs (H.item hmeet) items
  | .obj fs, _, _, m, hmeet, h => by
    cases h with
    | same => exact iff_of_true rfl (.same _)
    | leaf ha => cases ha
    | obj fields =>
      rw [H.obj_iff m fields.keys_eq, changed_obj]
      exact H.exact_fields fs hmeet fields
  | .null, _, _, _, hmeet, h | .bool _, _, _, _, hmeet, h | .int _, _, _, _, hmeet, h
  | .double _, _, _, _, hmeet, h | .str _, _, _, _, hmeet, h => H.exact_leaf rfl hmeet h

theorem Hides.exact_items (H : Hides secret mask shows Meets) : ∀ (xs : List Json)
    {ys : List Json} {s : secret.Place} {m : mask.Place}, Meets s m →
    ChangedItems secret s xs ys →
    (List.Forall₂ (fun x y => shows m x = shows m y) xs ys ↔ ChangedItems mask m xs ys)
  | [], _, _, _, _, .nil => iff_of_true .nil .nil
  | x :: xs, _, _, _, hmeet, .cons head tail => by
    rw [List.forall₂_cons, H.exact x hmeet head, H.exact_items xs hmeet tail]
    exact ⟨fun h => .cons h.1 h.2, fun | .cons hhead htail => ⟨hhead, htail⟩⟩

theorem Hides.exact_fields (H : Hides secret mask shows Meets) : ∀ (fs : List (Str × Json))
    {gs : List (Str × Json)} {s : secret.Place} {m : mask.Place}, Meets s m →
    ChangedFields secret s fs gs →
    (List.Forall₂ (fun f g => shows (mask.field m f.1) f.2 = shows (mask.field m g.1) g.2) fs gs ↔
      ChangedFields mask m fs gs)
  | [], _, _, _, _, .nil => iff_of_true .nil .nil
  | (k, a) :: fs, _, _, _, hmeet, .cons head tail => by
    rw [List.forall₂_cons, H.exact a (H.field k hmeet) head, H.exact_fields fs hmeet tail]
    exact ⟨fun h => .cons h.1 h.2, fun | .cons hhead htail => ⟨hhead, htail⟩⟩

end

end Exact

end Solverr.Lib
