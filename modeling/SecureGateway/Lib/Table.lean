import Mathlib.Data.Finset.Card
import Mathlib.Tactic.Common

/-!
# Tables of rows stored under their own key

`Table` is a map from ids to records with the fact that a row stands under its own key as a
field. Rows are listed in the order of their keys. Counting goes through the finite set of
keys whose row satisfies a predicate.
-/

namespace SecureGateway

variable {κ α : Type} [Ord κ] [Std.TransOrd κ] [Std.LawfulEqOrd κ]

/-- Rows of type `α`, each under the key `key` reads from it. -/
structure Table (α : Type) (key : α → κ) where
  rows : Std.ExtTreeMap κ α compare
  keyed : ∀ k a, rows[k]? = some a → key a = k

namespace Table
variable {key : α → κ}

def empty : Table α key := ⟨∅,by simp⟩

instance : Inhabited (Table α key) := ⟨empty⟩

def get (t : Table α key) (k : κ) : Option α := t.rows[k]?

def put (t : Table α key) (a : α) : Table α key where
  rows := t.rows.insert (key a) a
  keyed k b h := by
    rw [Std.ExtTreeMap.getElem?_insert] at h
    split at h
    · next he => cases h; exact Std.LawfulEqCmp.eq_of_compare he
    · exact t.keyed k b h

def mapRows (t : Table α key) (f : α → α) (hf : ∀ a, key (f a) = key a) : Table α key where
  rows := t.rows.map fun _ a => f a
  keyed k b h := by
    rw [Std.ExtTreeMap.getElem?_map,Option.map_eq_some_iff] at h
    obtain ⟨a,ha,rfl⟩ := h
    exact (hf a).trans (t.keyed k a ha)

def eraseRows (t : Table α key) (p : α → Bool) : Table α key where
  rows := t.rows.filter fun _ a => !p a
  keyed k b h := by
    rw [Std.ExtTreeMap.getElem?_filter',Option.filter_eq_some_iff] at h
    exact t.keyed k b h.1

def list (t : Table α key) (p : α → Bool) : List α := (t.rows.toList.map Prod.snd).filter p

def count (t : Table α key) (p : α → Bool) : ℕ := (t.list p).length

omit [Std.LawfulEqOrd κ] in
@[simp] theorem get_empty (k : κ) : (empty : Table α key).get k=none := by simp [get,empty]

omit [Std.LawfulEqOrd κ] in
theorem key_of_get {t : Table α key} {k : κ} {a : α} (h : t.get k=some a) : key a=k := t.keyed k a h

variable (t : Table α key)

theorem get_put [DecidableEq κ] (a : α) (k : κ) :
    (t.put a).get k=if key a=k then some a else t.get k := by
  simp only [get,put,Std.ExtTreeMap.getElem?_insert,Std.LawfulEqCmp.compare_eq_iff_eq]

@[simp] theorem get_put_self (a : α) : (t.put a).get (key a)=some a := by simp [get,put]

theorem get_put_ne (a : α) {k : κ} (h : key a≠k) : (t.put a).get k=t.get k := by
  simp [get,put,Std.ExtTreeMap.getElem?_insert,Std.LawfulEqCmp.compare_eq_iff_eq,h]

theorem exists_get_put [DecidableEq κ] {t : Table α key} {a : α} {k : κ} {P : α → Prop}
    (h : ∃ b,t.get k=some b ∧ P b) (ha : ∀ b,t.get (key a)=some b → P b → P a) :
    ∃ b,(t.put a).get k=some b ∧ P b := by
  obtain ⟨b,hb,hP⟩:=h
  by_cases hk : key a=k
  · subst hk
    exact ⟨a,get_put_self t a,ha b hb hP⟩
  · exact ⟨b,by rw [get_put_ne t a hk,hb],hP⟩

theorem forall_get_put [DecidableEq κ] {t : Table α key} {a : α} {P : α → Prop} (ha : P a)
    (h : ∀ k b,t.get k=some b → P b) : ∀ k b,(t.put a).get k=some b → P b := by
  intro k b hb
  rw [get_put] at hb
  split at hb
  · cases hb; exact ha
  · exact h k b hb

omit [Std.LawfulEqOrd κ] in
theorem replaced {t : Table α key} {a b : α} {k : κ} (hold : t.get k=some b)
    (hkey : key a=key b) : t.get (key a)=some b := by
  rw [hkey,key_of_get hold,hold]

@[simp] theorem get_mapRows (f : α → α) (hf : ∀ a,key (f a)=key a) (k : κ) :
    (t.mapRows f hf).get k=(t.get k).map f := by
  simp [get,mapRows]

variable (p : α → Bool)

@[simp] theorem get_eraseRows (k : κ) : (t.eraseRows p).get k=(t.get k).filter fun a => !p a := by
  simp [get,eraseRows]

@[ext] theorem ext {t t' : Table α key} (h : ∀ k,t.get k=t'.get k) : t=t' := by
  obtain ⟨rows,keyed⟩:=t
  obtain ⟨rows',keyed'⟩:=t'
  have hrows : rows=rows' := Std.ExtTreeMap.ext_getElem? h
  subst hrows
  rfl

theorem put_eq_self [DecidableEq κ] {t : Table α key} {a : α} (h : t.get (key a)=some a) :
    t.put a=t := by
  ext1 k
  rw [get_put]
  split
  · next hk => rw [← hk,h]
  · rfl

theorem put_eq_mapRows [DecidableEq κ] {t : Table α key} {b : α} (f : α → α)
    (hf : ∀ a,key (f a)=key a) (hb : t.get (key b)=some b) :
    t.put (f b)=t.mapRows (fun a => if key a=key b then f a else a)
      (fun a => by split <;> simp [hf]) := by
  ext1 k
  rw [get_put,get_mapRows,hf]
  split
  · next hk =>
    subst hk
    simp [hb]
  next hk =>
  cases hget : t.get k with
  | none => rfl
  | some a =>
    have hka : key a≠key b := fun heq => hk (heq.symm.trans (key_of_get hget))
    simp [hka]

theorem mapRows_mapRows (f g : α → α) (hf : ∀ a,key (f a)=key a) (hg : ∀ a,key (g a)=key a) :
    (t.mapRows f hf).mapRows g hg=t.mapRows (g ∘ f) fun a => (hg (f a)).trans (hf a) := by
  ext1 k
  simp [Option.map_map]

theorem mapRows_congr {t : Table α key} {f g : α → α} {hf : ∀ a,key (f a)=key a}
    {hg : ∀ a,key (g a)=key a} (h : ∀ k a,t.get k=some a → f a=g a) :
    t.mapRows f hf=t.mapRows g hg := by
  ext1 k
  rw [get_mapRows,get_mapRows]
  cases hget : t.get k with
  | none => rfl
  | some a => simp [h k a hget]

theorem mapRows_eq_self {t : Table α key} {f : α → α} {hf : ∀ a,key (f a)=key a}
    (h : ∀ k a,t.get k=some a → f a=a) : t.mapRows f hf=t := by
  ext1 k
  rw [get_mapRows]
  cases hget : t.get k with
  | none => rfl
  | some a => simp [h k a hget]

theorem mem_list {t : Table α key} {p : α → Bool} {a : α} :
    a∈t.list p ↔ t.get (key a)=some a ∧ p a=true := by
  simp only [list,List.mem_filter,List.mem_map,Prod.exists,exists_eq_right,get,
    Std.ExtTreeMap.mem_toList_iff_getElem?_eq_some]
  constructor
  · rintro ⟨⟨k,hk⟩,hp⟩
    exact ⟨by rwa [t.keyed k a hk],hp⟩
  · rintro ⟨hk,hp⟩
    exact ⟨⟨key a,hk⟩,hp⟩

theorem mem_list_of_get {t : Table α key} {p : α → Bool} {k : κ} {a : α} (h : t.get k=some a)
    (hp : p a=true) : a∈t.list p :=
  mem_list.2 ⟨by rwa [key_of_get h],hp⟩

theorem keys_list_nodup : ((t.list p).map key).Nodup := by
  have hrows : ((t.rows.toList.map Prod.snd).map key).Nodup := by
    rw [List.map_map,List.nodup_iff_pairwise_ne,List.pairwise_map]
    refine (Std.ExtTreeMap.distinct_keys_toList (t := t.rows)).imp_of_mem ?_
    rintro ⟨k,a⟩ ⟨k',b⟩ ha hb hne heq
    rw [Std.ExtTreeMap.mem_toList_iff_getElem?_eq_some] at ha hb
    have hk : k=k' := (t.keyed k a ha).symm.trans (heq.trans (t.keyed k' b hb))
    exact hne (Std.LawfulEqCmp.compare_eq_iff_eq.2 hk)
  exact hrows.sublist ((List.filter_sublist).map key)

@[simp] theorem list_empty : (empty : Table α key).list p = [] := by
  refine List.eq_nil_iff_forall_not_mem.2 fun a ha => ?_
  simp [mem_list] at ha

theorem head_list {t : Table α key} {p : α → Bool} {a : α} (ha : t.get (key a)=some a)
    (hp : p a=true) (hone : ∀ k b,t.get k=some b → p b=true → b=a) : (t.list p).head? = some a := by
  have hmem : a∈t.list p := mem_list.2 ⟨ha,hp⟩
  cases hlist : t.list p with
  | nil => simp [hlist] at hmem
  | cons b bs =>
    have hb : b∈t.list p := by simp [hlist]
    obtain ⟨hget,hpb⟩:=mem_list.1 hb
    rw [List.head?_cons,hone (key b) b hget hpb]

theorem list_eq_nil {t : Table α key} {p : α → Bool}
    (h : ∀ k b,t.get k=some b → p b=false) : t.list p = [] := by
  rw [List.eq_nil_iff_forall_not_mem]
  intro b hb
  obtain ⟨hget,hp⟩:=mem_list.1 hb
  simp [h (key b) b hget] at hp

section Recast
variable {β : Type} {key' : β → κ}

def recast (t : Table α key) (f : α → β) (hf : ∀ a, key' (f a) = key a) : Table β key' where
  rows := t.rows.map fun _ a => f a
  keyed k b h := by
    rw [Std.ExtTreeMap.getElem?_map,Option.map_eq_some_iff] at h
    obtain ⟨a,ha,rfl⟩ := h
    exact (hf a).trans (t.keyed k a ha)

variable (t : Table α key) {f : α → β} {hf : ∀ a, key' (f a) = key a}

@[simp] theorem get_recast (k : κ) : (t.recast f hf).get k=(t.get k).map f := by simp [get,recast]

@[simp] theorem recast_empty : (empty : Table α key).recast f hf=empty := by
  ext1 k
  simp

theorem recast_put [DecidableEq κ] (a : α) : (t.put a).recast f hf=(t.recast f hf).put (f a) := by
  ext1 k
  rw [get_recast,get_put,get_put,get_recast,hf]
  split <;> rfl

theorem recast_mapRows {g : α → α} {hg : ∀ a,key (g a)=key a} {g' : β → β}
    {hg' : ∀ b,key' (g' b)=key' b} (h : ∀ a,f (g a)=g' (f a)) :
    (t.mapRows g hg).recast f hf=(t.recast f hf).mapRows g' hg' := by
  ext1 k
  rw [get_recast,get_mapRows,get_mapRows,get_recast,Option.map_map,Option.map_map]
  congr 1
  funext a
  exact h a

variable {q : β → Bool}

theorem recast_eraseRows {p : α → Bool} (h : ∀ a,q (f a)=p a) :
    (t.eraseRows p).recast f hf=(t.recast f hf).eraseRows q := by
  ext1 k
  rw [get_recast,get_eraseRows,get_eraseRows,get_recast]
  cases t.get k with
  | none => rfl
  | some a => cases hp : p a <;> simp [Option.filter_some,h,hp]

theorem list_recast (hf : ∀ a,key' (f a)=key a) {p : α → Bool} (h : ∀ a,q (f a)=p a) :
    (t.recast f hf).list q=(t.list p).map f := by
  have hq : q ∘ f=p := funext h
  simp only [list,recast,Std.ExtTreeMap.toList_map,List.map_map,List.filter_map]
  rw [← hq]
  rfl

theorem count_recast (hf : ∀ a,key' (f a)=key a) {p : α → Bool} (h : ∀ a,q (f a)=p a) :
    (t.recast f hf).count q=t.count p := by
  rw [count,count,list_recast t hf h,List.length_map]

end Recast

section Counting
variable [DecidableEq κ]

def keysWhere (t : Table α key) (p : α → Bool) : Finset κ := ((t.list p).map key).toFinset

theorem card_keysWhere (t : Table α key) (p : α → Bool) : (t.keysWhere p).card=t.count p := by
  rw [keysWhere,List.toFinset_card_of_nodup (keys_list_nodup t p),List.length_map,count]

theorem mem_keysWhere {t : Table α key} {p : α → Bool} {k : κ} :
    k∈t.keysWhere p ↔ ∃ a,t.get k=some a ∧ p a=true := by
  simp only [keysWhere,List.mem_toFinset,List.mem_map,mem_list]
  constructor
  · rintro ⟨a,⟨hget,hp⟩,rfl⟩
    exact ⟨a,hget,hp⟩
  · rintro ⟨a,hget,hp⟩
    exact ⟨a,⟨by rwa [key_of_get hget],hp⟩,key_of_get hget⟩

theorem count_le_of_imp {t t' : Table α key} {p q : α → Bool}
    (h : ∀ k a,t'.get k=some a → q a=true → ∃ b,t.get k=some b ∧ p b=true) :
    t'.count q≤t.count p := by
  rw [← card_keysWhere,← card_keysWhere]
  refine Finset.card_le_card fun k hk => ?_
  obtain ⟨a,ha,hq⟩:=mem_keysWhere.1 hk
  exact mem_keysWhere.2 (h k a ha hq)

theorem count_put_le (t : Table α key) (a : α) (p : α → Bool) : (t.put a).count p≤t.count p+1 := by
  rw [← card_keysWhere,← card_keysWhere]
  refine (Finset.card_le_card ?_).trans (Finset.card_insert_le (key a) (t.keysWhere p))
  intro k hk
  obtain ⟨b,hb,hp⟩:=mem_keysWhere.1 hk
  rw [get_put] at hb
  split at hb
  · next he => exact Finset.mem_insert.2 (.inl he.symm)
  · exact Finset.mem_insert.2 (.inr (mem_keysWhere.2 ⟨b,hb,hp⟩))

theorem count_put_new {t : Table α key} {a : α} {p : α → Bool} (hnew : t.get (key a)=none)
    (hp : p a=true) : (t.put a).count p=t.count p+1 := by
  have hkeys : (t.put a).keysWhere p=insert (key a) (t.keysWhere p) := by
    ext k
    rw [Finset.mem_insert,mem_keysWhere,mem_keysWhere,get_put]
    by_cases hk : key a=k
    · simp [hk,hp]
    · simp [hk,Ne.symm hk]
  rw [← card_keysWhere,hkeys,Finset.card_insert_of_notMem,card_keysWhere]
  simp [mem_keysWhere,hnew]

theorem count_put_le_same {t : Table α key} {a : α} {p : α → Bool}
    (h : p a=true → ∃ b,t.get (key a)=some b ∧ p b=true) : (t.put a).count p≤t.count p := by
  refine count_le_of_imp fun k b hb hp => ?_
  rw [get_put] at hb
  split at hb
  · next he => cases hb; cases he; exact h hp
  · exact ⟨b,hb,hp⟩

theorem count_put_same {t : Table α key} {a : α} {p : α → Bool}
    (h : p a=true ↔ ∃ b,t.get (key a)=some b ∧ p b=true) : (t.put a).count p=t.count p := by
  have hkeys : (t.put a).keysWhere p=t.keysWhere p := by
    ext k
    rw [mem_keysWhere,mem_keysWhere,get_put]
    by_cases hk : key a=k
    · subst hk; simp [h]
    · simp [hk]
  rw [← card_keysWhere,hkeys,card_keysWhere]

theorem count_mapRows {t : Table α key} {f : α → α} (hf : ∀ a,key (f a)=key a) {p : α → Bool}
    (h : ∀ a,p (f a)=p a) : (t.mapRows f hf).count p=t.count p := by
  have hkeys : (t.mapRows f hf).keysWhere p=t.keysWhere p := by
    ext k
    rw [mem_keysWhere,mem_keysWhere,get_mapRows]
    cases t.get k with
    | none => simp
    | some a => simp [h]
  rw [← card_keysWhere,hkeys,card_keysWhere]

end Counting

end Table
end SecureGateway
