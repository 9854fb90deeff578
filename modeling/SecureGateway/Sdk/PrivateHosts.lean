import SecureGateway.Lib.Pieces
import SecureGateway.Sdk.EndpointValidator
import Mathlib.Tactic.Common

/-!
# Which hosts are private

`privateHost` is the documented grammar. Both validators accept every such host, and more:
numerals with a sign, with leading zeros or, in Java, with digits of another script; dots at
the end, in Java; and spellings of `localhost` with a character that folds to one of its
letters.
-/

namespace SecureGateway.Sdk.Endpoint

def Canonical (t : Text) : Prop :=
  (∀ c ∈ t, zero≤c ∧ c ≤ zero + 9) ∧ (t.head? = some zero → t.length=1)

instance : DecidablePred Canonical := fun _ => inferInstanceAs (Decidable (_ ∧ _))

def canonicalOctet (t : Text) : Option ℕ :=
  if t≠[] ∧ Canonical t then (number asciiDigit t).filter (· ≤ 255) else none

/- An address lies in a block: they agree in the first `bits` bits. -/
def inBlock (address base bits : ℕ) : Bool := address / 2 ^ (32 - bits) = base / 2 ^ (32 - bits)

def address (a b c d : ℕ) : ℕ := ((a * 256 + b) * 256 + c) * 256 + d

def privateBlocks : List (ℕ × ℕ) :=
  [(address 127 0 0 0,8),(address 10 0 0 0,8),(address 172 16 0 0,12),
    (address 192 168 0 0,16)]

def privateAddress : Option (List ℕ) → Bool
  | some [a,b,c,d] => privateBlocks.any fun block => inBlock (address a b c d) block.1 block.2
  | _ => false

def bare (host : Text) : Text :=
  match host with
  | [] => []
  | c :: rest =>
    if c=openBracket ∧ rest.getLast? = some closeBracket then rest.dropLast else c :: rest

def privateHost (host : Text) : Bool :=
  let h := bare host
  h.map asciiLower == codes "localhost" || h == codes "::1" ||
    privateAddress ((h.splitOn dot).mapM canonicalOctet)

/-- A text that stands for an octet: an optional sign, then digits. -/
def Spells (digit : ℕ → Option ℕ) (t : Text) (v : ℕ) : Prop :=
  ∃ sign ds : Text, t = sign ++ ds ∧ (sign=[] ∨ sign = [plus] ∨ sign = [minus] ∧ v=0) ∧
    ds ≠ [] ∧ number digit ds = some v ∧ v≤255

section
variable {digit : ℕ → Option ℕ}

variable {t : Text}

theorem foldlM_digit {v w : ℕ} (h : t.foldlM (fun v c => (digit c).map (10*v + ·)) w=some v) :
    ∀ c∈t,digit c≠none := by
  induction t generalizing w with
  | nil => exact fun c hc => absurd hc List.not_mem_nil
  | cons x t ih =>
    rw [List.foldlM_cons] at h
    obtain ⟨w',hw',hrest⟩:=Option.bind_eq_some_iff.mp h
    obtain ⟨d,hd,-⟩:=Option.map_eq_some_iff.mp hw'
    intro c hc
    cases List.mem_cons.mp hc with
    | inl hself =>
      rw [hself,hd]
      exact Option.some_ne_none d
    | inr hmem => exact ih hrest c hmem

theorem digit_of_number {v : ℕ} (h : number digit t=some v) : ∀ c∈t,digit c≠none := foldlM_digit h

theorem number_congr {digit' : ℕ → Option ℕ} (h : ∀ c∈t,digit c=digit' c) :
    number digit t=number digit' t := by
  unfold number
  generalize 0=w
  induction t generalizing w with
  | nil => rfl
  | cons x t ih =>
    rw [List.foldlM_cons,List.foldlM_cons,h x List.mem_cons_self]
    exact bind_congr fun w' => ih (fun c hc => h c (List.mem_cons_of_mem x hc)) w'

theorem checkOctet_eq_some (z : ℤ) (v : ℕ) : checkOctet z=some v ↔ z=v ∧ v≤255 := by
  unfold checkOctet
  split
  · constructor
    · intro h
      cases h
    · omega
  · rw [Option.some.injEq]
    omega

theorem signed_octet (sign : ℤ) (hsign : sign=1 ∨ sign = -1) (ds : Text) (v : ℕ) :
    (signed digit sign ds).bind checkOctet=some v ↔
      ds ≠ [] ∧ number digit ds=some v ∧ v≤255 ∧ (sign = -1 → v=0) := by
  unfold signed
  by_cases hds : ds=[]
  · simp [hds]
  rw [if_neg hds,Option.bind_eq_some_iff]
  constructor
  · rintro ⟨z,hz,hcheck⟩
    obtain ⟨n,hn,hz⟩:=Option.map_eq_some_iff.mp hz
    obtain ⟨hzv,hv⟩:=(checkOctet_eq_some z v).mp hcheck
    have hnv : n=v := by
      cases hsign with
      | inl hpos =>
        rw [hpos] at hz
        omega
      | inr hneg =>
        rw [hneg] at hz
        omega
    refine ⟨hds,hnv ▸ hn,hv,?_⟩
    intro hneg
    rw [hneg] at hz
    omega
  · rintro ⟨-,hn,hv,hneg⟩
    refine ⟨sign*v,Option.map_eq_some_iff.mpr ⟨v,hn,rfl⟩,?_⟩
    rw [checkOctet_eq_some]
    refine ⟨?_,hv⟩
    cases hsign with
    | inl hpos => rw [hpos,Int.one_mul]
    | inr hminus => rw [hneg hminus,hminus]; rfl

theorem filter_octet {lo hi : ℤ} (hlo : lo≤0) (hhi : 255≤hi) (o : Option ℤ) :
    (o.filter fun v => lo≤v ∧ v≤hi).bind checkOctet=o.bind checkOctet := by
  cases o with
  | none => rfl
  | some z =>
    by_cases hz : lo≤z ∧ z≤hi
    · rw [Option.filter_some,if_pos (decide_eq_true hz)]
    have hcheck : checkOctet z=none := by rw [checkOctet,if_pos (by omega)]
    simp [Option.filter_some,hz,hcheck]

theorem octet_eq_some {lo hi : ℤ} (hlo : lo≤0) (hhi : 255≤hi) (hplus : digit plus=none)
    (hminus : digit minus=none) (t : Text) (v : ℕ) :
    octet (parseInteger digit lo hi) t=some v ↔ Spells digit t v := by
  unfold octet parseInteger
  rw [filter_octet hlo hhi]
  constructor
  · intro h
    cases t with
    | nil => cases h
    | cons c rest =>
      dsimp only at h
      split at h
      · next hc =>
        obtain ⟨hds,hn,hv,hzero⟩:=(signed_octet (-1) (.inr rfl) rest v).mp h
        exact ⟨[minus],rest,by rw [hc]; rfl,.inr (.inr ⟨rfl,hzero rfl⟩),hds,hn,hv⟩
      split at h
      · next hc =>
        obtain ⟨hds,hn,hv,-⟩:=(signed_octet 1 (.inl rfl) rest v).mp h
        exact ⟨[plus],rest,by rw [hc]; rfl,.inr (.inl rfl),hds,hn,hv⟩
      · obtain ⟨hds,hn,hv,-⟩:=(signed_octet 1 (.inl rfl) (c::rest) v).mp h
        exact ⟨[],c::rest,rfl,.inl rfl,hds,hn,hv⟩
  · rintro ⟨sign,ds,ht,hsign,hds,hn,hv⟩
    rw [ht]
    rcases hsign with hnil | hpos | ⟨hneg,hzero⟩
    · rw [hnil,List.nil_append]
      cases ds with
      | nil => exact absurd rfl hds
      | cons c rest =>
        have hdigit:=digit_of_number hn c List.mem_cons_self
        have hcm : c≠minus := fun hc => hdigit (hc ▸ hminus)
        have hcp : c≠plus := fun hc => hdigit (hc ▸ hplus)
        dsimp only
        rw [if_neg hcm,if_neg hcp,signed_octet 1 (.inl rfl)]
        exact ⟨hds,hn,hv,fun h => by cases h⟩
    · rw [hpos,List.singleton_append]
      dsimp only
      rw [if_neg (by decide),if_pos rfl,signed_octet 1 (.inl rfl)]
      exact ⟨hds,hn,hv,fun h => by cases h⟩
    · rw [hneg,List.singleton_append]
      dsimp only
      rw [if_pos rfl,signed_octet (-1) (.inr rfl)]
      exact ⟨hds,hn,hv,fun _ => hzero⟩

theorem not_mem_of_spells {v c : ℕ} (h : Spells digit t v) (hdigit : digit c=none)
    (hplus : c≠plus) (hminus : c≠minus) : c∉t := by
  obtain ⟨sign,ds,ht,hsign,-,hn,-⟩:=h
  intro hc
  rw [ht] at hc
  cases List.mem_append.mp hc with
  | inl hc =>
    rcases hsign with hs | hs | ⟨hs,-⟩
    · rw [hs] at hc
      cases hc
    · rw [hs] at hc
      exact hplus (List.mem_singleton.mp hc)
    · rw [hs] at hc
      exact hminus (List.mem_singleton.mp hc)
  | inr hc => exact digit_of_number hn c hc hdigit

theorem ne_nil_of_spells {v : ℕ} (h : Spells digit t v) : t≠[] := by
  obtain ⟨sign,ds,ht,-,hds,-⟩:=h
  rw [ht]
  exact List.append_ne_nil_of_right_ne_nil sign hds

theorem canonicalOctet_eq_some (hascii : ∀ c<128,digit c=asciiDigit c) (t : Text) (v : ℕ) :
    canonicalOctet t=some v ↔ Spells digit t v ∧ Canonical t := by
  have hnumber : Canonical t → number asciiDigit t=number digit t := by
    intro hcanonical
    apply number_congr
    intro c hc
    have hrange:=hcanonical.1 c hc
    simp only [zero] at hrange
    exact (hascii c (by omega)).symm
  unfold canonicalOctet
  constructor
  · intro h
    split at h
    · next hc =>
      obtain ⟨hn,hv⟩:=Option.filter_eq_some_iff.mp h
      rw [hnumber hc.2] at hn
      exact ⟨⟨[],t,rfl,.inl rfl,hc.1,hn,of_decide_eq_true hv⟩,hc.2⟩
    · cases h
  rintro ⟨hspells,hcanonical⟩
  rw [if_pos ⟨ne_nil_of_spells hspells,hcanonical⟩,hnumber hcanonical]
  obtain ⟨sign,ds,ht,hsign,hds,hn,hv⟩:=hspells
  -- a sign is not a digit
  have hnil : sign=[] := by
    rcases hsign with hs | hs | ⟨hs,-⟩
    · exact hs
    · have hrange:=hcanonical.1 plus (by rw [ht,hs]; exact List.mem_cons_self)
      simp [plus,zero] at hrange
    · have hrange:=hcanonical.1 minus (by rw [ht,hs]; exact List.mem_cons_self)
      simp [minus,zero] at hrange
  rw [ht,hnil,List.nil_append,hn]
  exact Option.filter_eq_some_iff.mpr ⟨rfl,decide_eq_true hv⟩

end

theorem privateAddress_eq {a b c d : ℕ} (hb : b≤255) (hc : c≤255) (hd : d≤255) :
    privateAddress (some [a,b,c,d])=inPrivateRange a b := by
  have h8 : (((a*256+b)*256+c)*256+d) / 16777216=a := by omega
  have h12 : (((a*256+b)*256+c)*256+d) / 1048576=a*16+b / 16 := by omega
  have h16 : (((a*256+b)*256+c)*256+d) / 65536=a*256+b := by omega
  have hblocks : privateAddress (some [a,b,c,d])=true ↔
      a=127 ∨ a=10 ∨ a*16+b / 16=2753 ∨ a*256+b=49320 := by
    simp [privateAddress,privateBlocks,inBlock,address,h8,h12,h16]
  have hrange : inPrivateRange a b=true ↔
      a=127 ∨ a=10 ∨ (a=172 ∧ b ≥ 16 ∧ b≤31) ∨ (a=192 ∧ b=168) := by
    unfold inPrivateRange
    split_ifs <;> simp_all
  rw [Bool.eq_iff_iff,hblocks,hrange]
  omega

/-- Four numerals of a private address with dots between them, and `n` dots at the end. -/
def Quad (digit : ℕ → Option ℕ) (n : ℕ) (ts : List Text) (h : Text) : Prop :=
  h = [dot].intercalate (ts ++ List.replicate n []) ∧
    ∃ a b c d, List.Forall₂ (Spells digit) ts [a,b,c,d] ∧ inPrivateRange a b = true

variable {ts : List Text} {h : Text}

section
variable {digit : ℕ → Option ℕ}

variable {n : ℕ}

theorem Quad.exists_cons (hq : Quad digit n ts h) : ∃ t t' rest,ts=t::t'::rest := by
  obtain ⟨-,a,b,c,d,hts,-⟩:=hq
  cases hts with
  | cons _ hts =>
    cases hts with
    | cons _ hts => exact ⟨_,_,_,rfl⟩

theorem Quad.spells (hq : Quad digit n ts h) : ∀ t∈ts,∃ v,Spells digit t v := by
  obtain ⟨-,a,b,c,d,hts,-⟩:=hq
  intro t ht
  obtain ⟨v,-,hv⟩:=Pieces.exists_of_forall₂ hts ht
  exact ⟨v,hv⟩

theorem Quad.dot_mem (hq : Quad digit n ts h) : dot∈h := by
  obtain ⟨t,t',rest,hts⟩:=hq.exists_cons
  rw [hq.1,hts]
  exact Pieces.mem_intercalate dot t t' _

theorem Quad.splitOn (hdot : digit dot=none) (hq : Quad digit n ts h) :
    h.splitOn dot=ts++List.replicate n [] := by
  rw [hq.1]
  apply List.splitOn_intercalate
  · intro t ht
    cases List.mem_append.mp ht with
    | inl ht =>
      obtain ⟨v,hv⟩:=hq.spells t ht
      exact not_mem_of_spells hv hdot (by decide) (by decide)
    | inr ht =>
      rw [List.eq_of_mem_replicate ht]
      exact List.not_mem_nil
  · obtain ⟨t,t',rest,hts⟩:=hq.exists_cons
    rw [hts]
    exact List.cons_ne_nil _ _

theorem Quad.unique {digit' : ℕ → Option ℕ} (hdot : digit dot=none) (hdot' : digit' dot=none)
    {n n' : ℕ} {ts' : List Text} (hq : Quad digit n ts h) (hq' : Quad digit' n' ts' h) :
    n=n' ∧ ts=ts' := by
  have hlength : ∀ {digit : ℕ → Option ℕ} {n ts},Quad digit n ts h → ts.length=4 := by
    intro digit n ts hq
    obtain ⟨-,a,b,c,d,hts,-⟩:=hq
    exact hts.length_eq
  have hsplit:=(hq.splitOn hdot).symm.trans (hq'.splitOn hdot')
  obtain ⟨hts,hdots⟩:=List.append_inj hsplit ((hlength hq).trans (hlength hq').symm)
  exact ⟨by simpa using congrArg List.length hdots,hts⟩

theorem quad_of_splitOn (hsplit : h.splitOn dot=ts++List.replicate n [])
    (hts : ∃ a b c d,List.Forall₂ (Spells digit) ts [a,b,c,d] ∧ inPrivateRange a b=true) :
    Quad digit n ts h := by
  refine ⟨?_,hts⟩
  rw [← hsplit,List.intercalate_splitOn]

theorem ofOctets_mapM {α : Type} {f : α → Option ℕ} (text : α → Text)
    (hf : ∀ x v,f x=some v ↔ Spells digit (text x) v) (parts : List α) :
    ofOctets (parts.mapM f)=true ↔
      ∃ a b c d,List.Forall₂ (Spells digit) (parts.map text) [a,b,c,d] ∧
        inPrivateRange a b=true := by
  have hread : ∀ vs,parts.mapM f=some vs ↔ List.Forall₂ (Spells digit) (parts.map text) vs := by
    intro vs
    rw [Pieces.mapM_eq_some_iff,List.forall₂_map_left_iff]
    simp only [hf]
  constructor
  · intro h
    unfold ofOctets at h
    split at h
    · next a b c d hvs => exact ⟨a,b,c,d,(hread _).mp hvs,h⟩
    · cases h
  · rintro ⟨a,b,c,d,hts,hrange⟩
    rw [(hread _).mpr hts]
    exact hrange

theorem length_of_ofOctets {α : Type} (f : α → Option ℕ) (parts : List α)
    (h : ofOctets (parts.mapM f)=true) : parts.length=4 := by
  unfold ofOctets at h
  split at h
  · next hvs => exact ((Pieces.mapM_eq_some_iff _ _ _).mp hvs).length_eq
  · cases h

theorem le_of_spells {t : Text} {v : ℕ} (h : Spells digit t v) : v≤255 := by
  obtain ⟨sign,ds,-,-,-,-,hv⟩:=h
  exact hv

theorem privateAddress_mapM (hascii : ∀ c<128,digit c=asciiDigit c) (ts : List Text) :
    privateAddress (ts.mapM canonicalOctet)=true ↔
      (∃ a b c d,List.Forall₂ (Spells digit) ts [a,b,c,d] ∧ inPrivateRange a b=true) ∧
      ∀ t∈ts,Canonical t := by
  have hread : ∀ vs,ts.mapM canonicalOctet=some vs ↔
      (∀ t∈ts,Canonical t) ∧ List.Forall₂ (Spells digit) ts vs := by
    intro vs
    rw [Pieces.mapM_eq_some_iff,← List.forall₂_and_left]
    simp only [canonicalOctet_eq_some hascii,and_comm]
  have hblocks : ∀ {a b c d},List.Forall₂ (Spells digit) ts [a,b,c,d] →
      privateAddress (some [a,b,c,d])=inPrivateRange a b := by
    intro a b c d hts
    obtain ⟨t₀,r₀,-,hts,-⟩:=List.forall₂_cons_right_iff.mp hts
    obtain ⟨t₁,r₁,hb,hts,-⟩:=List.forall₂_cons_right_iff.mp hts
    obtain ⟨t₂,r₂,hc,hts,-⟩:=List.forall₂_cons_right_iff.mp hts
    obtain ⟨t₃,r₃,hd,-,-⟩:=List.forall₂_cons_right_iff.mp hts
    exact privateAddress_eq (le_of_spells hb) (le_of_spells hc) (le_of_spells hd)
  constructor
  · intro h
    cases hvs : ts.mapM canonicalOctet with
    | none =>
      rw [hvs] at h
      cases h
    | some vs =>
      rw [hvs] at h
      obtain ⟨hcanonical,hts⟩:=(hread vs).mp hvs
      unfold privateAddress at h
      split at h
      · next a b c d heq =>
        rw [Option.some.injEq] at heq
        rw [heq] at hts
        exact ⟨⟨a,b,c,d,hts,(hblocks hts).symm.trans h⟩,hcanonical⟩
      · cases h
  · rintro ⟨⟨a,b,c,d,hts,hrange⟩,hcanonical⟩
    rw [(hread _).mpr ⟨hcanonical,hts⟩,hblocks hts]
    exact hrange

/-- The documented hosts, in the same terms as what the validators take. -/
theorem privateHost_iff (hascii : ∀ c<128,digit c=asciiDigit c) (host : Text) :
    privateHost host=true ↔
      (bare host).map asciiLower=codes "localhost" ∨ bare host=codes "::1" ∨
      ∃ ts,Quad digit 0 ts (bare host) ∧ ∀ t∈ts,Canonical t := by
  have hdot : digit dot=none := hascii dot (by decide)
  have hquad : privateAddress (((bare host).splitOn dot).mapM canonicalOctet)=true ↔
      ∃ ts,Quad digit 0 ts (bare host) ∧ ∀ t∈ts,Canonical t := by
    rw [privateAddress_mapM hascii]
    constructor
    · rintro ⟨hts,hcanonical⟩
      exact ⟨_,quad_of_splitOn (List.append_nil _).symm hts,hcanonical⟩
    rintro ⟨ts,hq,hcanonical⟩
    rw [hq.splitOn hdot,List.replicate_zero,List.append_nil]
    exact ⟨hq.2,hcanonical⟩
  rw [← hquad]
  simp only [privateHost,Bool.or_eq_true,beq_iff_eq,or_assoc]

end

theorem accepts_iff (isName isLoopback : Bool) {isQuad : Bool} {n : ℕ} (hquad : isQuad=true → n=4) :
    (if isName || isLoopback then true else if n≠4 then false else isQuad)=true ↔
      isName=true ∨ isLoopback=true ∨ isQuad=true := by
  cases isName with
  | true => simp
  | false =>
    cases isLoopback with
    | true => simp
    | false =>
      simp only [Bool.or_self,Bool.false_eq_true,if_false,false_or]
      constructor
      · intro h
        split at h
        · cases h
        · exact h
      · intro h
        rw [if_neg (not_not.mpr (hquad h))]
        exact h

theorem map_asciiLower_ne {word : Text} (hdot : dot∈h) (hword : dot∉word) :
    h.map asciiLower≠word := by
  intro heq
  apply hword
  rw [← heq]
  exact List.mem_map.mpr ⟨dot,hdot,by decide⟩

theorem Quad.canonical {digit : ℕ → Option ℕ} (hascii : ∀ c<128,digit c=asciiDigit c) {n : ℕ}
    {host : Text} (hq : Quad digit n ts (bare host)) (hprivate : privateHost host=true) :
    n=0 ∧ ∀ t∈ts,Canonical t := by
  have hdot : digit dot=none := hascii dot (by decide)
  rw [privateHost_iff hascii] at hprivate
  rcases hprivate with hl | hl | ⟨ts',hq',hcanonical⟩
  · exact absurd hl (map_asciiLower_ne hq.dot_mem (by decide))
  · have hmem:=hq.dot_mem
    rw [hl] at hmem
    exact absurd hmem (by decide)
  · obtain ⟨hn,hts⟩:=hq.unique hdot hdot hq'
    exact ⟨hn,hts ▸ hcanonical⟩

namespace Java
variable (T : CharacterTable)

theorem digit_dot : T.digit dot=none := T.digit_ascii dot (by decide)

theorem octet_parseInt (t : Text) (v : ℕ) : octet (parseInt T) t=some v ↔ Spells T.digit t v := by
  apply octet_eq_some
  · decide
  · decide
  · exact T.digit_ascii plus (by decide)
  · exact T.digit_ascii minus (by decide)

theorem ofOctets_split (h : Text) :
    ofOctets ((split h).mapM (octet (parseInt T)))=true ↔ ∃ n ts,Quad T.digit n ts h := by
  rw [ofOctets_mapM (fun t => t) (octet_parseInt T),List.map_id']
  constructor
  · intro hts
    by_cases hdot : dot∈h
    · rw [split,if_pos hdot] at hts
      obtain ⟨n,hn⟩:=Pieces.exists_append_replicate (h.splitOn dot)
      exact ⟨n,_,quad_of_splitOn hn hts⟩
    · rw [split,if_neg hdot] at hts
      obtain ⟨a,b,c,d,hts,-⟩:=hts
      have hlength:=hts.length_eq
      simp at hlength
  · rintro ⟨n,ts,hq⟩
    have hlast : ∀ hne : ts≠[],ts.getLast hne ≠ [] := by
      intro hne
      obtain ⟨v,hv⟩:=hq.spells _ (List.getLast_mem hne)
      exact ne_nil_of_spells hv
    rw [split,if_pos hq.dot_mem,hq.splitOn (digit_dot T),
      Pieces.rdropWhile_append_replicate ts n hlast]
    exact hq.2

theorem unbracket_eq_bare (host : Text) : unbracket host=bare host := by
  cases host with
  | nil => rfl
  | cons c rest =>
    unfold unbracket bare
    cases rest with
    | nil =>
      have hne : ¬ (c=openBracket ∧ c=closeBracket) := by
        simp only [openBracket,closeBracket]
        omega
      simp [hne]
    | cons c' rest => simp

def longSLocalhost : Text := codes "localho" ++ 0x17F :: codes "t"

theorem fold_eq {x : ℕ} (hx : x∈codes "localhost") (hs : x≠0x73) (c : ℕ) :
    T.fold c=x ↔ asciiLower c=x := by
  have hletter : ∀ x∈codes "localhost", 0x61≤x ∧ x≤0x7A := by decide
  have hrange:=hletter x hx
  rw [CharacterTable.fold,T.fold_letter c x hx]
  unfold asciiLower
  split <;> omega

theorem fold_s (c : ℕ) : T.fold c=0x73 ↔ asciiLower c=0x73 ∨ asciiLower c=0x17F := by
  rw [CharacterTable.fold,T.fold_letter c 0x73 (by decide)]
  unfold asciiLower
  split <;> omega

theorem map_fold_eq (word : Text) (hword : ∀ x∈word,x∈codes "localhost" ∧ x≠0x73)
    (h : Text) : h.map T.fold=word ↔ h.map asciiLower=word := by
  induction word generalizing h with
  | nil => simp
  | cons x word ih =>
    have hx:=hword x List.mem_cons_self
    cases h with
    | nil => simp
    | cons c h =>
      rw [List.map_cons,List.map_cons,List.cons.injEq,List.cons.injEq,fold_eq T hx.1 hx.2 c,
        ih (fun y hy => hword y (List.mem_cons_of_mem x hy)) h]

theorem equalsIgnoreCase_localhost (h : Text) :
    equalsIgnoreCase T h (codes "localhost")=true ↔
      h.map asciiLower=codes "localhost" ∨ h.map asciiLower=longSLocalhost := by
  have hself : (codes "localhost").map T.fold=codes "localhost" := by
    have hid : ∀ x∈codes "localhost", T.fold x=x :=
      fun x hx => (T.fold_letter x x hx).mpr (.inl rfl)
    rw [List.map_congr_left hid,List.map_id']
  have hword : codes "localhost" = codes "localho" ++ 0x73::codes "t" := by decide
  have hbefore:=map_fold_eq T (codes "localho") (by decide)
  have hafter:=map_fold_eq T (codes "t") (by decide)
  rw [equalsIgnoreCase,beq_iff_eq,hself,hword,longSLocalhost]
  simp only [List.map_eq_append_iff,List.map_eq_cons_iff,hbefore,hafter,fold_s]
  constructor
  · rintro ⟨h₁,h₂,hh,hpre,c,h₃,hh₂,hc,hpost⟩
    cases hc with
    | inl hc => exact .inl ⟨h₁,h₂,hh,hpre,c,h₃,hh₂,hc,hpost⟩
    | inr hc => exact .inr ⟨h₁,h₂,hh,hpre,c,h₃,hh₂,hc,hpost⟩
  · rintro (⟨h₁,h₂,hh,hpre,c,h₃,hh₂,hc,hpost⟩ | ⟨h₁,h₂,hh,hpre,c,h₃,hh₂,hc,hpost⟩)
    · exact ⟨h₁,h₂,hh,hpre,c,h₃,hh₂,.inl hc,hpost⟩
    · exact ⟨h₁,h₂,hh,hpre,c,h₃,hh₂,.inr hc,hpost⟩

/-- What the Java validator takes for private. -/
theorem isPrivateOrLoopback_iff (host : Text) :
    isPrivateOrLoopback T (some host)=true ↔
      (bare host).map asciiLower=codes "localhost" ∨
      (bare host).map asciiLower=longSLocalhost ∨ bare host=codes "::1" ∨
      ∃ n ts,Quad T.digit n ts (bare host) := by
  cases host with
  | nil =>
    constructor
    · intro h
      cases h
    rintro (h | h | h | ⟨n,ts,hq⟩)
    · exact absurd h (by decide)
    · exact absurd h (by decide)
    · exact absurd h (by decide)
    · exact absurd hq.dot_mem List.not_mem_nil
  | cons c rest =>
    have hloose:=accepts_iff (equalsIgnoreCase T (bare (c::rest)) (codes "localhost"))
      (bare (c::rest) == codes "::1")
      (length_of_ofOctets (octet (parseInt T)) (split (bare (c::rest))))
    rw [ofOctets_split,equalsIgnoreCase_localhost,beq_iff_eq,or_assoc,
      ← unbracket_eq_bare] at hloose
    rw [← unbracket_eq_bare]
    exact hloose

/-- What Java takes beyond the documentation: `localhost` with U+017F, and four numerals of
which one is not canonical or that have dots after them. -/
def Odd (host : Text) : Prop :=
  (bare host).map asciiLower = longSLocalhost ∨
    ∃ n ts, Quad T.digit n ts (bare host) ∧ (0<n ∨ ∃ t ∈ ts, ¬ Canonical t)

theorem isPrivateOrLoopback_iff_odd (host : Text) :
    isPrivateOrLoopback T (some host)=true ↔ privateHost host=true ∨ Odd T host := by
  rw [isPrivateOrLoopback_iff,privateHost_iff T.digit_ascii]
  constructor
  · rintro (hl | hl | hl | ⟨n,ts,hq⟩)
    · exact .inl (.inl hl)
    · exact .inr (.inl hl)
    · exact .inl (.inr (.inl hl))
    by_cases hcanonical : n=0 ∧ ∀ t∈ts,Canonical t
    · obtain ⟨rfl,hcanonical⟩:=hcanonical
      exact .inl (.inr (.inr ⟨ts,hq,hcanonical⟩))
    refine .inr (.inr ⟨n,ts,hq,?_⟩)
    by_cases hn : n=0
    · right
      by_contra hnone
      exact hcanonical ⟨hn,fun t ht => not_not.mp fun hc => hnone ⟨t,ht,hc⟩⟩
    · exact .inl (Nat.pos_of_ne_zero hn)
  · rintro ((hl | hl | ⟨ts,hq,-⟩) | hl | ⟨n,ts,hq,-⟩)
    · exact .inl hl
    · exact .inr (.inr (.inl hl))
    · exact .inr (.inr (.inr ⟨0,ts,hq⟩))
    · exact .inr (.inl hl)
    · exact .inr (.inr (.inr ⟨n,ts,hq⟩))

/-- Of the URLs that parse, the relay and the auth service are reached over TLS, or in
plaintext at the hosts that the validator takes for private. -/
theorem accepted_iff {uri : Text → Option Uri} {url scheme host : Text}
    (hurl : url.all T.isWhitespace=false) (huri : uri url=some ⟨some scheme,some host⟩) :
    (requireSecureRelay T uri (some url) = .ok url ↔ scheme.map T.toLowerCase=codes "wss" ∨
      scheme.map T.toLowerCase=codes "ws" ∧ (privateHost host=true ∨ Odd T host)) ∧
    (requireSecureAuth T uri (some url) = .ok url ↔ scheme.map T.toLowerCase=codes "https" ∨
      scheme.map T.toLowerCase=codes "http" ∧ (privateHost host=true ∨ Odd T host)) := by
  have hrequire (plain secure what : Text) : require T uri (some url) plain secure what = .ok url ↔
      scheme.map T.toLowerCase=secure ∨
        scheme.map T.toLowerCase=plain ∧ isPrivateOrLoopback T (some host)=true := by
    simp only [require,hurl,huri,Bool.false_eq_true,if_false]
    split_ifs with hsecure hplain <;> simp [*]
  rw [← isPrivateOrLoopback_iff_odd]
  exact ⟨hrequire _ _ _,hrequire _ _ _⟩

theorem not_privateHost_of_odd (host : Text) (h : Odd T host) : ¬ privateHost host=true := by
  intro hprivate
  cases h with
  | inl hlong =>
    rw [privateHost_iff T.digit_ascii] at hprivate
    rcases hprivate with hl | hl | ⟨ts,hq,-⟩
    · rw [hl] at hlong
      exact absurd hlong (by decide)
    · rw [hl] at hlong
      exact absurd hlong (by decide)
    · exact map_asciiLower_ne hq.dot_mem (by decide) hlong
  | inr hquad =>
    obtain ⟨n,ts,hq,hodd⟩:=hquad
    obtain ⟨hn,hcanonical⟩:=hq.canonical T.digit_ascii hprivate
    rcases hodd with hpos | ⟨t,ht,hnot⟩
    · omega
    · exact hnot (hcanonical t ht)

end Java

/- ASCII without carriage returns: each scalar is a character of its own. -/
def Plain (t : Text) : Prop := ∀ c ∈ t, c<128 ∧ c≠13

theorem plain_of_quad {n : ℕ} (hq : Quad asciiDigit n ts h) : Plain h := by
  intro c hc
  rw [hq.1] at hc
  cases Pieces.mem_of_mem_intercalate hc with
  | inl hdot =>
    rw [hdot]
    decide
  | inr hpiece =>
    obtain ⟨t,ht,hct⟩:=hpiece
    cases List.mem_append.mp ht with
    | inl ht =>
      obtain ⟨v,hv⟩:=hq.spells t ht
      by_contra hnot
      apply not_mem_of_spells hv _ _ _ hct
      · rw [asciiDigit,if_neg]
        simp only [zero]
        omega
      · simp only [plus]
        omega
      · simp only [minus]
        omega
    | inr ht =>
      rw [List.eq_of_mem_replicate ht] at hct
      cases hct

theorem plain_of_map_asciiLower {word : Text} (heq : h.map asciiLower=word) (hword : Plain word) :
    Plain h := by
  intro c hc
  have hlower:=hword (asciiLower c) (heq ▸ List.mem_map_of_mem hc)
  unfold asciiLower at hlower
  split at hlower <;> omega

theorem plain_of_bare (hplain : Plain (bare h)) : Plain h := by
  cases h with
  | nil => exact hplain
  | cons c rest =>
    unfold bare at hplain
    dsimp only at hplain
    split at hplain
    · next hbrackets =>
      intro x hx
      cases List.mem_cons.mp hx with
      | inl hself =>
        rw [hself,hbrackets.1]
        decide
      | inr hrest =>
        rw [← List.dropLast_append_getLast? closeBracket hbrackets.2,List.mem_append,
          List.mem_singleton] at hrest
        cases hrest with
        | inl hin => exact hplain x hin
        | inr hlast =>
          rw [hlast]
          decide
    · exact hplain

theorem plain_bare_of_privateHost (hh : privateHost h=true) : Plain (bare h) := by
  rw [privateHost_iff fun _ _ => rfl] at hh
  rcases hh with hl | hl | ⟨ts,hq,-⟩
  · exact plain_of_map_asciiLower hl (by unfold Plain; decide)
  · rw [hl]
    unfold Plain
    decide
  · exact plain_of_quad hq

theorem plain_of_privateHost (hh : privateHost h=true) : Plain h :=
  plain_of_bare (plain_bare_of_privateHost hh)

namespace Swift
variable (F : Foundation)

theorem Character.ext_scalars {c c' : Character} (h : c.scalars=c'.scalars) : c=c' := by
  cases c
  cases c'
  cases h
  rfl

theorem single_injective : Function.Injective Character.single := by
  intro a b h
  exact List.singleton_inj.mp (congrArg Character.scalars h)

theorem scalars_map_single (t : Text) : scalars (t.map .single)=t := by
  induction t with
  | nil => rfl
  | cons c t ih =>
    rw [List.map_cons,scalars,List.flatMap_cons]
    exact congrArg (c :: ·) ih

theorem eq_single {c : Character} (h : Plain c.scalars) : ∃ x,c = .single x := by
  cases hs : c.scalars with
  | nil => exact absurd hs c.nonempty
  | cons a rest =>
    cases rest with
    | nil => exact ⟨a,Character.ext_scalars hs⟩
    | cons b rest =>
      have ha:=h a (by rw [hs]; exact List.mem_cons_self)
      have hb:=h b (by rw [hs]; exact List.mem_cons_of_mem a List.mem_cons_self)
      have hbreak:=c.apart [] a b rest hs ha.1 hb.1
      exact absurd hbreak.1 ha.2

theorem eq_map_single {s : SString} (h : Plain (scalars s)) : s=(scalars s).map .single := by
  induction s with
  | nil => rfl
  | cons c s ih =>
    rw [scalars,List.flatMap_cons] at h
    obtain ⟨x,hx⟩:=eq_single fun y hy => h y (List.mem_append_left _ hy)
    have hs:=ih fun y hy => h y (List.mem_append_right _ hy)
    rw [scalars,List.flatMap_cons,List.map_append]
    rw [hx]
    exact congrArg (Character.single x :: ·) hs

theorem octet_parseInt (t : Text) (v : ℕ) : octet parseInt t=some v ↔ Spells asciiDigit t v := by
  apply octet_eq_some
  · decide
  · decide
  · rfl
  · rfl

theorem ofOctets_splitOn (h : SString) :
    ofOctets ((h.splitOn (.single dot)).mapM fun p => octet parseInt (scalars p))=true ↔
      ∃ ts,Quad asciiDigit 0 ts (scalars h) := by
  rw [ofOctets_mapM scalars fun p v => octet_parseInt (scalars p) v]
  constructor
  · intro hts
    refine ⟨_,?_,hts⟩
    have hjoin:=Pieces.flatMap_intercalate Character.scalars [.single dot]
      (h.splitOn (.single dot))
    rw [List.intercalate_splitOn] at hjoin
    rw [List.replicate_zero,List.append_nil]
    exact hjoin
  rintro ⟨ts,hq⟩
  -- all characters are single scalars, so the parts are the pieces
  have hsplit : h.splitOn (.single dot)=ts.map (List.map .single) := by
    have hmap:=eq_map_single (plain_of_quad hq)
    rw [hq.1,List.replicate_zero,List.append_nil,Pieces.map_intercalate] at hmap
    rw [hmap]
    apply List.splitOn_intercalate
    · intro p hp
      obtain ⟨t,ht,rfl⟩:=List.mem_map.mp hp
      obtain ⟨v,hv⟩:=hq.spells t ht
      intro hmem
      obtain ⟨c,hc,hcdot⟩:=List.mem_map.mp hmem
      exact not_mem_of_spells hv rfl (by decide) (by decide) (single_injective hcdot ▸ hc)
    · obtain ⟨t,t',rest,hts⟩:=hq.exists_cons
      rw [hts]
      exact List.cons_ne_nil _ _
  have htexts : (h.splitOn (.single dot)).map scalars=ts := by
    rw [hsplit,List.map_map]
    have hid : ∀ t∈ts,(scalars ∘ List.map .single) t=t := fun t _ => scalars_map_single t
    rw [List.map_congr_left hid,List.map_id']
  rw [htexts]
  exact hq.2

/-- What the Swift validator takes for private. -/
theorem isPrivateOrLoopback_iff (host : SString) :
    isPrivateOrLoopback F host=true ↔
      F.orderedSame (scalars (unbracket host)) (codes "localhost")=true ∨
      scalars (unbracket host)=codes "::1" ∨
      ∃ ts,Quad asciiDigit 0 ts (scalars (unbracket host)) := by
  have hloose:=accepts_iff (F.orderedSame (scalars (unbracket host)) (codes "localhost"))
    (scalars (unbracket host) == codes "::1")
    (length_of_ofOctets (fun p => octet parseInt (scalars p))
      ((unbracket host).splitOn (.single dot)))
  rw [ofOctets_splitOn,beq_iff_eq] at hloose
  exact hloose

theorem unbracket_map_single (t : Text) :
    unbracket (t.map .single)=(Java.unbracket t).map .single := by
  have hsome : ∀ (o : Option ℕ) (x : ℕ),
      o.map Character.single=some (.single x) ↔ o=some x := by
    intro o x
    cases o with
    | none => simp
    | some y => simp [single_injective.eq_iff]
  unfold unbracket Java.unbracket
  simp only [List.head?_map,List.getLast?_map,hsome]
  split
  · rw [List.map_dropLast,List.map_tail]
  · rfl

theorem scalars_unbracket {host : SString} (h : Plain (scalars host)) :
    scalars (unbracket host)=bare (scalars host) := by
  rw [eq_map_single h,unbracket_map_single,scalars_map_single,scalars_map_single,
    Java.unbracket_eq_bare]

theorem plain_of_unbracket {host : SString} (h : Plain (scalars (unbracket host))) :
    Plain (scalars host) := by
  unfold unbracket at h
  split at h
  · next hbrackets =>
    cases host with
    | nil => exact h
    | cons c rest =>
      have hopen : c = .single openBracket := Option.some.inj hbrackets.1
      cases rest with
      | nil =>
        rw [hopen]
        unfold Plain
        decide
      | cons c' rest =>
        have hlast:=hbrackets.2
        rw [List.getLast?_cons_cons] at hlast
        have hrest:=List.dropLast_append_getLast? _ hlast
        intro x hx
        rw [← hrest,hopen,scalars,List.flatMap_cons,List.flatMap_append,List.mem_append,
          List.mem_append] at hx
        rcases hx with hx | hx | hx
        · rw [List.mem_singleton.mp hx]
          decide
        · exact h x hx
        · rw [List.mem_singleton.mp hx]
          decide
  · exact h

/-- What Swift takes beyond the documentation: `localhost` with a character outside of
ASCII, and four numerals of which one is not canonical. -/
def Odd (host : SString) : Prop :=
  (F.orderedSame (scalars (unbracket host)) (codes "localhost") = true ∧
      ∃ c ∈ scalars (unbracket host), 128≤c) ∨
    ∃ ts, Quad asciiDigit 0 ts (scalars (unbracket host)) ∧ ∃ t ∈ ts, ¬ Canonical t

theorem isPrivateOrLoopback_iff_odd (host : SString) :
    isPrivateOrLoopback F host=true ↔ privateHost (scalars host)=true ∨ Odd F host := by
  rw [isPrivateOrLoopback_iff]
  constructor
  · intro h
    by_cases hplain : Plain (scalars (unbracket host))
    · have hsame:=scalars_unbracket (plain_of_unbracket hplain)
      rw [privateHost_iff fun _ _ => rfl,← hsame]
      rcases h with hname | hloopback | ⟨ts,hq⟩
      · rw [F.orderedSame_ascii _ _ (fun c hc => (hplain c hc).1) (by decide)] at hname
        exact .inl (.inl hname)
      · exact .inl (.inr (.inl hloopback))
      by_cases hcanonical : ∀ t∈ts,Canonical t
      · exact .inl (.inr (.inr ⟨ts,hq,hcanonical⟩))
      refine .inr (.inr ⟨ts,hq,?_⟩)
      by_contra hnone
      exact hcanonical fun t ht => not_not.mp fun hc => hnone ⟨t,ht,hc⟩
    · right
      left
      rcases h with hname | hloopback | ⟨ts,hq⟩
      · refine ⟨hname,?_⟩
        by_contra hnone
        -- the comparison of ASCII texts is known
        have hascii : ∀ c∈scalars (unbracket host), c<128 := fun c hc =>
          Nat.lt_of_not_le fun hle => hnone ⟨c,hc,hle⟩
        rw [F.orderedSame_ascii _ _ hascii (by decide)] at hname
        exact hplain (plain_of_map_asciiLower hname (by unfold Plain; decide))
      · rw [hloopback] at hplain
        exact absurd (by unfold Plain; decide) hplain
      · exact absurd (plain_of_quad hq) hplain
  · rintro (hprivate | ⟨hname,-⟩ | ⟨ts,hq,-⟩)
    · have hplain:=plain_of_privateHost hprivate
      have hsame:=scalars_unbracket hplain
      rw [privateHost_iff fun _ _ => rfl,← hsame] at hprivate
      rcases hprivate with hname | hloopback | ⟨ts,hq,-⟩
      · left
        have hascii:=plain_of_map_asciiLower hname (by unfold Plain; decide)
        rw [F.orderedSame_ascii _ _ (fun c hc => (hascii c hc).1) (by decide)]
        exact hname
      · exact .inr (.inl hloopback)
      · exact .inr (.inr ⟨ts,hq⟩)
    · exact .inl hname
    · exact .inr (.inr ⟨ts,hq⟩)

theorem accepted_iff {parse : SString → Option Url} {url scheme host : SString} (hurl : url≠[])
    (hparse : parse url=some ⟨some scheme,some host⟩) :
    (requireSecureRelay F parse url = .ok ⟨some scheme,some host⟩ ↔
      F.lowercased (scalars scheme)=codes "wss" ∨
        F.lowercased (scalars scheme)=codes "ws" ∧ (privateHost (scalars host)=true ∨ Odd F host)) ∧
    (requireSecureAuth F parse url = .ok ⟨some scheme,some host⟩ ↔
      F.lowercased (scalars scheme)=codes "https" ∨
        F.lowercased (scalars scheme)=codes "http" ∧
          (privateHost (scalars host)=true ∨ Odd F host)) := by
  have hrequire (plain secure : Text) (what : SString) :
      require F parse url plain secure what = .ok ⟨some scheme,some host⟩ ↔
        F.lowercased (scalars scheme)=secure ∨
          F.lowercased (scalars scheme)=plain ∧ isPrivateOrLoopback F host=true := by
    simp only [require,List.isEmpty_iff,hurl,hparse,if_false]
    split_ifs with hsecure hplain <;> simp [*]
  rw [← isPrivateOrLoopback_iff_odd]
  exact ⟨hrequire _ _ _,hrequire _ _ _⟩

theorem not_privateHost_of_odd (host : SString) (h : Odd F host) :
    ¬ privateHost (scalars host)=true := by
  intro hprivate
  have hsame:=scalars_unbracket (plain_of_privateHost hprivate)
  have hplain:=plain_bare_of_privateHost hprivate
  rcases h with ⟨-,c,hc,hle⟩ | ⟨ts,hq,t,ht,hnot⟩
  · rw [hsame] at hc
    have hlt:=(hplain c hc).1
    omega
  · rw [hsame] at hq
    exact hnot ((hq.canonical (fun _ _ => rfl) hprivate).2 t ht)

end Swift

def utf16 (c : ℕ) : Text :=
  if c < 0x10000 then [c]
  else [0xD800 + (c - 0x10000) / 0x400,0xDC00 + (c - 0x10000) % 0x400]

theorem utf16_plain {t : Text} (h : ∀ c∈t,c<128) : t.flatMap utf16=t := by
  induction t with
  | nil => rfl
  | cons c t ih =>
    have hc:=h c List.mem_cons_self
    rw [List.flatMap_cons,ih fun x hx => h x (List.mem_cons_of_mem c hx),utf16,
      if_pos (by omega)]
    rfl

theorem plain_of_utf16 {t : Text} (h : Plain (t.flatMap utf16)) : Plain t := by
  intro c hc
  have hunits : ∀ x∈utf16 c,x<128 ∧ x≠13 := fun x hx => h x (List.mem_flatMap.mpr ⟨c,hc,hx⟩)
  unfold utf16 at hunits
  split at hunits
  · exact hunits c List.mem_cons_self
  · have hsurrogate:=hunits _ List.mem_cons_self
    omega

theorem privateHost_utf16 (t : Text) : privateHost (t.flatMap utf16)=privateHost t := by
  rw [Bool.eq_iff_iff]
  constructor
  · intro h
    have hplain:=plain_of_utf16 (plain_of_privateHost h)
    rw [utf16_plain fun c hc => (hplain c hc).1] at h
    exact h
  · intro h
    have hplain:=plain_of_privateHost h
    rw [utf16_plain fun c hc => (hplain c hc).1]
    exact h

theorem or_iff_left_of_apart {p a : Prop} (h : a → ¬ p) : (p ∨ a ↔ p) ↔ ¬ a := by
  constructor
  · intro hiff ha
    exact h ha (hiff.mp (.inr ha))
  · exact or_iff_left

theorem or_iff_or_of_apart {p a b : Prop} (ha : a → ¬ p) (hb : b → ¬ p) :
    (p ∨ a ↔ p ∨ b) ↔ (a ↔ b) := by
  by_cases hp : p
  · have hna : ¬ a := fun h => ha h hp
    have hnb : ¬ b := fun h => hb h hp
    simp [hp,hna,hnb]
  · simp [hp]

/-- **Private hosts.** Java takes exactly the documented hosts and its odd ones, Swift
exactly the documented hosts and its own odd ones. So each follows the documentation on
the hosts that are not odd for it, and they agree on a host unless it is odd for one of
them only. -/
theorem private_host_grammar (T : CharacterTable) (F : Swift.Foundation) (h : Text)
    (host : Swift.SString) :
    (Java.isPrivateOrLoopback T (some h) = privateHost h ↔ ¬ Java.Odd T h) ∧
    (Swift.isPrivateOrLoopback F host = privateHost (Swift.scalars host) ↔ ¬ Swift.Odd F host) ∧
    (Java.isPrivateOrLoopback T (some ((Swift.scalars host).flatMap utf16)) =
        Swift.isPrivateOrLoopback F host ↔
      (Java.Odd T ((Swift.scalars host).flatMap utf16) ↔ Swift.Odd F host)) := by
  have hjavaOdd := Java.not_privateHost_of_odd T ((Swift.scalars host).flatMap utf16)
  have hswiftOdd := Swift.not_privateHost_of_odd F host
  rw [privateHost_utf16] at hjavaOdd
  refine ⟨?_,?_,?_⟩
  · rw [Bool.eq_iff_iff,Java.isPrivateOrLoopback_iff_odd]
    exact or_iff_left_of_apart (Java.not_privateHost_of_odd T h)
  · rw [Bool.eq_iff_iff,Swift.isPrivateOrLoopback_iff_odd]
    exact or_iff_left_of_apart hswiftOdd
  · rw [Bool.eq_iff_iff,Java.isPrivateOrLoopback_iff_odd,Swift.isPrivateOrLoopback_iff_odd,
      privateHost_utf16]
    exact or_iff_or_of_apart hjavaOdd hswiftOdd

def scriptZeros : List ℕ :=
  [0x660,0x6F0,0x7C0,0x966,0x9E6,0xA66,0xAE6,0xB66,0xBE6,0xC66,0xCE6,0xD66,0xDE6,
    0xE50,0xED0,0xF20,0x1040,0x1090,0x17E0,0x1810,0x1946,0x19D0,0x1A80,0x1A90,0x1B50,
    0x1BB0,0x1C40,0x1C50,0xA620,0xA8D0,0xA900,0xA9D0,0xA9F0,0xAA50,0xABF0,0xFF10]

def basicPlane : CharacterTable where
  digit c := (asciiDigit c).or ((scriptZeros.find? fun z => z ≤ c ∧ c ≤ z + 9).map (c - ·))
  toUpperCase c := if 0x61 ≤ c ∧ c ≤ 0x7A then c - 0x20 else if c = 0x17F then 0x53 else c
  toLowerCase := asciiLower
  isWhitespace c := c == 0x20
  digit_ascii := by
    intro c hc
    have hzeros : ∀ z ∈ scriptZeros, 0x660 ≤ z := by decide
    have hnone : (scriptZeros.find? fun z => z ≤ c ∧ c ≤ z + 9) = none := by
      rw [List.find?_eq_none]
      intro z hz
      have hle := hzeros z hz
      simp only [decide_eq_true_eq]
      omega
    rw [hnone,Option.map_none,Option.or_none]
  fold_letter := by
    intro c x hx
    have hletter : ∀ x ∈ codes "localhost", 0x61 ≤ x ∧ x ≤ 0x7A := by decide
    have hrange := hletter x hx
    unfold asciiLower
    split_ifs <;> omega

def asciiFoundation : Swift.Foundation where
  orderedSame a b := a.map asciiLower == b.map asciiLower
  lowercased := List.map asciiLower
  orderedSame_ascii := fun _ _ _ _ => beq_iff_eq

/-- Java takes an address with a dot after it, and one in Arabic digits; Swift takes
neither. Both take a sign. -/
theorem undocumented_hosts_taken :
    (Java.isPrivateOrLoopback basicPlane (some (codes "127.0.0.1.")) = true ∧
      privateHost (codes "127.0.0.1.") = false ∧
      Swift.isPrivateOrLoopback asciiFoundation ((codes "127.0.0.1.").map .single) = false) ∧
    (Java.isPrivateOrLoopback basicPlane (some (codes "\u0661\u0660.0.0.1")) = true ∧
      privateHost (codes "\u0661\u0660.0.0.1") = false ∧
      Swift.isPrivateOrLoopback asciiFoundation ((codes "\u0661\u0660.0.0.1").map .single) = false) ∧
    Java.isPrivateOrLoopback basicPlane (some (codes "10.-0.0.+01")) = true ∧
      privateHost (codes "10.-0.0.+01") = false ∧
      Swift.isPrivateOrLoopback asciiFoundation ((codes "10.-0.0.+01").map .single) = true := by
  decide +kernel

end SecureGateway.Sdk.Endpoint
