import Mathlib.Data.List.DropRight
import Mathlib.Data.List.Forall2

/-!
# Texts cut into pieces

A text is cut at a separator (`List.splitOn`), pieces without content are dropped at its
end (`List.rdropWhile`), and each piece is read (`List.mapM`). These are the rules for
going between the text and its pieces.
-/

namespace SecureGateway.Pieces
variable {α β : Type}

theorem mapM_eq_some_iff (f : α → Option β) (xs : List α) (ys : List β) :
    xs.mapM f=some ys ↔ List.Forall₂ (fun x y => f x=some y) xs ys := by
  induction xs generalizing ys with
  | nil =>
    rw [List.mapM_nil,List.forall₂_nil_left_iff]
    exact ⟨fun h => (Option.some.inj h).symm,fun h => h ▸ rfl⟩
  | cons x xs ih =>
    rw [List.mapM_cons,List.forall₂_cons_left_iff]
    simp only [bind,Option.bind_eq_some_iff,pure,Option.some.injEq]
    constructor
    · rintro ⟨y,hy,zs,hzs,hys⟩
      exact ⟨y,zs,hy,(ih zs).mp hzs,hys.symm⟩
    · rintro ⟨y,zs,hy,hzs,hys⟩
      exact ⟨y,hy,zs,(ih zs).mpr hzs,hys.symm⟩

theorem exists_of_forall₂ {R : α → β → Prop} {xs : List α} {ys : List β}
    (h : List.Forall₂ R xs ys) {x : α} (hx : x∈xs) : ∃ y∈ys,R x y := by
  induction h with
  | nil => cases hx
  | @cons a b xs ys hab _ ih =>
    cases List.mem_cons.mp hx with
    | inl hself => exact ⟨b,List.mem_cons_self,hself ▸ hab⟩
    | inr hmem =>
      obtain ⟨y,hy,hxy⟩:=ih hmem
      exact ⟨y,List.mem_cons_of_mem b hy,hxy⟩

theorem exists_append_replicate (xs : List (List α)) :
    ∃ n,xs=xs.rdropWhile List.isEmpty++List.replicate n [] := by
  refine ⟨(xs.rtakeWhile List.isEmpty).length,?_⟩
  have hempty : xs.rtakeWhile List.isEmpty =
      List.replicate (xs.rtakeWhile List.isEmpty).length [] := by
    rw [List.eq_replicate_iff]
    exact ⟨rfl,fun x hx => List.isEmpty_iff.mp (List.mem_rtakeWhile_imp hx)⟩
  rw [← hempty,List.rdropWhile_append_rtakeWhile]

theorem rdropWhile_append_replicate (xs : List (List α)) (n : ℕ)
    (hlast : ∀ h : xs≠[],xs.getLast h ≠ []) :
    (xs++List.replicate n []).rdropWhile List.isEmpty=xs := by
  induction n with
  | zero =>
    rw [List.replicate_zero,List.append_nil,List.rdropWhile_eq_self_iff]
    exact fun h hempty => hlast h (List.isEmpty_iff.mp hempty)
  | succ n ih =>
    rw [List.replicate_succ',← List.append_assoc,List.rdropWhile_concat_pos _ _ _ rfl]
    exact ih

theorem mem_intercalate (sep : α) (x y : List α) (xs : List (List α)) :
    sep ∈ [sep].intercalate (x::y::xs) := by
  rw [List.intercalate_cons_cons,List.append_assoc]
  exact List.mem_append_right x List.mem_cons_self

theorem mem_of_mem_intercalate {sep x : α} {xs : List (List α)}
    (h : x ∈ [sep].intercalate xs) : x=sep ∨ ∃ l∈xs,x∈l := by
  induction xs with
  | nil => cases h
  | cons l xs ih =>
    cases xs with
    | nil =>
      rw [List.intercalate_singleton] at h
      exact .inr ⟨l,List.mem_cons_self,h⟩
    | cons l' xs =>
      rw [List.intercalate_cons_cons,List.append_assoc,List.mem_append,List.mem_append,
        List.mem_singleton] at h
      rcases h with h | h | h
      · exact .inr ⟨l,List.mem_cons_self,h⟩
      · exact .inl h
      cases ih h with
      | inl h => exact .inl h
      | inr h =>
        obtain ⟨l₀,hl₀,hx⟩:=h
        exact .inr ⟨l₀,List.mem_cons_of_mem l hl₀,hx⟩

theorem flatMap_intercalate (f : α → List β) (sep : List α) (xs : List (List α)) :
    (sep.intercalate xs).flatMap f=(sep.flatMap f).intercalate (xs.map (List.flatMap f)) := by
  induction xs with
  | nil => rfl
  | cons x xs ih =>
    cases xs with
    | nil => simp
    | cons y xs =>
      rw [List.map_cons,List.map_cons,List.intercalate_cons_cons,List.intercalate_cons_cons,
        List.flatMap_append,List.flatMap_append,ih]
      rfl

theorem map_intercalate (f : α → β) (sep : List α) (xs : List (List α)) :
    (sep.intercalate xs).map f=(sep.map f).intercalate (xs.map (List.map f)) := by
  have h:=flatMap_intercalate (fun x => [f x]) sep xs
  have hmap : List.flatMap (fun x => [f x])=List.map f := by
    funext l
    exact List.map_eq_flatMap.symm
  rw [hmap] at h
  exact h

end SecureGateway.Pieces
