import Mathlib.Algebra.Group.Nat.Defs
import Mathlib.Data.Int.Init
import Mathlib.Data.List.TakeWhile

/-!
# String functions of the Go standard library

`strings.TrimSpace`, `strings.Cut` and `strconv.Atoi`, on the characters of a
valid string.
-/

namespace SecureGateway.GoStrings

/- `unicode.IsSpace`. -/
def isSpace (c : Char) : Bool :=
  (9 ≤ c.toNat && c.toNat ≤ 13) || c.toNat == 0x20 || c.toNat == 0x85 || c.toNat == 0xA0 ||
    c.toNat == 0x1680 || (0x2000 ≤ c.toNat && c.toNat ≤ 0x200A) || c.toNat == 0x2028 ||
    c.toNat == 0x2029 || c.toNat == 0x202F || c.toNat == 0x205F || c.toNat == 0x3000

def trimSpace (s : String) : String :=
  String.ofList ((s.toList.dropWhile isSpace).reverse.dropWhile isSpace).reverse

/- `strings.Cut` around one character: what stands before and after its first
occurrence, or `none` where it does not occur. -/
def cut (s : String) (sep : Char) : Option (String × String) :=
  let cs := s.toList
  if sep ∈ cs then
    some (String.ofList (cs.takeWhile (· ≠ sep)),String.ofList (cs.dropWhile (· ≠ sep)).tail)
  else none

/-! ### Texts without a margin -/

theorem head_of_trimSpace {s : String} (h : trimSpace s=s) {c : Char} {cs : List Char}
    (hs : s.toList=c::cs) : isSpace c=false := by
  by_contra hc
  have hspace : isSpace c=true := by simpa using hc
  have hdrop : s.toList.dropWhile isSpace=cs.dropWhile isSpace := by
    rw [hs,List.dropWhile_cons_of_pos hspace]
  have hlen : s.toList.length≤(cs.dropWhile isSpace).length := by
    have hrest:=(List.dropWhile_suffix isSpace (l := (cs.dropWhile isSpace).reverse)).length_le
    rw [← hdrop] at hrest ⊢
    have htrim : (trimSpace s).toList.length=s.toList.length := by rw [h]
    simp only [trimSpace,String.toList_ofList,List.length_reverse] at htrim hrest
    omega
  have hcs:=(List.dropWhile_suffix isSpace (l := cs)).length_le
  rw [hs,List.length_cons] at hlen
  omega

theorem trimSpace_eq_self {s : String} {c : Char} {cs : List Char} (ds : List Char) (d : Char)
    (hs : s.toList=c::cs) (hc : isSpace c=false) (hlast : s.toList=ds ++ [d])
    (hd : isSpace d=false) : trimSpace s=s := by
  have hstart : s.toList.dropWhile isSpace=s.toList := by
    rw [hs,List.dropWhile_cons_of_neg (by simp [hc])]
  have hend : (s.toList.reverse).dropWhile isSpace=s.toList.reverse := by
    rw [hlast,List.reverse_append,List.reverse_singleton,List.singleton_append,
      List.dropWhile_cons_of_neg (by simp [hd])]
  rw [trimSpace,hstart,hend,List.reverse_reverse,String.ofList_toList]

theorem takeWhile_append_eq_iff (sep : Char) (a b : List Char) :
    (a++sep::b).takeWhile (· ≠ sep)=a ↔ sep∉a := by
  constructor
  · intro h hmem
    rw [← h] at hmem
    simpa using List.mem_takeWhile_imp hmem
  intro h
  have hall : ∀ c∈a,decide (c≠sep)=true := by
    intro c hc
    exact decide_eq_true fun heq => h (heq ▸ hc)
  rw [List.takeWhile_append_of_pos hall,List.takeWhile_cons_of_neg (by simp),List.append_nil]

/-! ### Numbers -/

def decimal (cs : List Char) : Option ℕ :=
  if cs.isEmpty then none
  else cs.foldlM (fun n c =>
    if '0' ≤ c ∧ c ≤ '9' then some (10 * n + (c.toNat - '0'.toNat)) else none) 0

/- `strconv.Atoi`, where `int` has 64 bits: an optional sign, digits, and a
value in range. -/
def atoi (s : String) : Option ℤ :=
  match s.toList with
  | '-' :: ds => (decimal ds).bind fun n => if n ≤ 2 ^ 63 then some (-(n : ℤ)) else none
  | '+' :: ds => (decimal ds).bind fun n => if n < 2 ^ 63 then some (n : ℤ) else none
  | ds => (decimal ds).bind fun n => if n < 2 ^ 63 then some (n : ℤ) else none

end SecureGateway.GoStrings
