import SecureGateway.Relay.Protocol

/-!
# Three readers of one frame (`protocol.go`, `Protocol.java`, `Protocol.swift`)

The SDK of the peer decodes the bytes of a frame that the relay has decoded. Go matches keys
without regard to case, and a null leaves a string as it was; Jackson refuses unknown keys and
assigns null; Swift ignores unknown ones. A later member overrides an earlier one, except that
Swift may keep the first. Reading bytes as JSON is a parameter.
-/

namespace SecureGateway.Envelopes
open E2ee (Bytes utf8)
open Relay.Protocol (version typeMsg typeAck typeSys DecodeError)

inductive Json
  | null
  | bool (b : Bool)
  | num (literal : String)
  | str (s : String)
  | arr (items : List Json)
  | obj (members : List (String × Json))

abbrev Member := String × Json

structure Libraries where
  parse : Bytes → Option Json
  jacksonReads : Bytes → Bool
  swiftReads : Bytes → Bool
  parseInt : String → Option ℤ
  jacksonInt : Json → Option ℤ
  jacksonLong : Json → Option ℤ
  /- The scalars Jackson turns into strings. -/
  jacksonText : Json → Option String
  swiftInt : Json → Option ℤ
  swiftKeepsFirst : Bool

inductive Field
  | v
  | type
  | id
  | ts
  | payload
  deriving DecidableEq

namespace Field

def all : List Field := [v,type,id,ts,payload]

def name : Field → String
  | v => "v"
  | type => "type"
  | id => "id"
  | ts => "ts"
  | payload => "payload"

end Field

namespace Json

def string? : Json → Option String
  | str s => some s
  | _ => none

end Json

variable (L : Libraries)

def members (raw : Bytes) : List Member :=
  match L.parse raw with
  | some (.obj ms) => ms
  | _ => []

namespace Go

abbrev Envelope := Relay.Protocol.Envelope (Option Json)

/- Simple case folding, as far as it leads to ASCII letters: besides the capitals there
are the long s and the Kelvin sign. -/
def foldRune (c : Char) : Char :=
  if c = Char.ofNat 0x17f then 's' else if c = Char.ofNat 0x212a then 'k' else c.toLower

def foldName (key : String) : List Char := key.toList.map foldRune

def field? (key : String) : Option Field :=
  Field.all.find? fun f => foldName key == f.name.toList

/- One member of the object. An error does not end `json.Unmarshal` at once, but it is
what it returns in the end. -/
def unmarshalMember (e : Envelope) (m : Member) : Option Envelope :=
  match field? m.1, m.2 with
  | none, _ => some e
  | some .payload, value => some { e with payload := some value }
  | some _, .null => some e
  | some .v, .num literal => (L.parseInt literal).map fun n => { e with v := n }
  | some .ts, .num literal => (L.parseInt literal).map fun n => { e with ts := n }
  | some .type, .str s => some { e with type := s }
  | some .id, .str s => some { e with id := s }
  | _, _ => none

/- `json.Unmarshal` into a zero envelope; a null leaves it as it is. -/
def unmarshal (raw : Bytes) : Option Envelope :=
  match L.parse raw with
  | some .null => some { payload := none }
  | some (.obj ms) => ms.foldlM (unmarshalMember L) { payload := none }
  | _ => none

def decode (raw : Bytes) (maxBytes : ℤ) : Except DecodeError Envelope :=
  Relay.Protocol.decode (unmarshal L) maxBytes raw

def onFrame (e : Envelope) (raw : Bytes) : Option Bytes :=
  if e.type=typeMsg ∨ e.type=typeAck then some raw else none

def forward (raw : Bytes) (maxBytes : ℤ) : Option (Envelope × Bytes) :=
  match decode L raw maxBytes with
  | .ok e => (onFrame e raw).map fun out => (e,out)
  | .error _ => none

end Go

namespace Java

structure Envelope where
  v : ℤ := version
  type : Option String := none
  id : Option String := none
  ts : ℤ := 0

def text? (value : Json) : Option (Option String) :=
  match value with
  | .null => some none
  | .str s => some (some s)
  | other => (L.jacksonText other).map some

def setProperty (e : Envelope) (m : Member) : Option Envelope :=
  match Field.all.find? fun f => m.1 == f.name with
  | none => none
  | some .v => (L.jacksonInt m.2).map fun n => { e with v := n }
  | some .type => (text? L m.2).map fun s => { e with type := s }
  | some .id => (text? L m.2).map fun s => { e with id := s }
  | some .ts => (L.jacksonLong m.2).map fun n => { e with ts := n }
  | some .payload => some e

def readValue (raw : Bytes) : Option Envelope :=
  match L.jacksonReads raw, L.parse raw with
  | true, some (.obj ms) => ms.foldlM (setProperty L) {}
  | _, _ => none

def decode (raw : Bytes) : Except DecodeError Envelope :=
  match readValue L raw with
  | none => .error .malformed
  | some e =>
    if e.v≠version then .error (.unsupportedVersion e.v)
    else if e.id=none ∨ e.id = some "" then .error .missingID
    else .ok e

end Java

def named (key : String) (ms : List Member) : List Json :=
  ms.filterMap fun m => if m.1=key then some m.2 else none

namespace Swift

structure Envelope where
  v : ℤ
  type : String
  id : String
  ts : ℤ

def member? (key : String) (ms : List Member) : Option Json :=
  if L.swiftKeepsFirst then (named key ms).head? else (named key ms).getLast?

/- The synthesized `init(from:)`: every key but `payload` is required, and no value is
checked further. -/
def decode (raw : Bytes) : Except DecodeError Envelope :=
  match L.swiftReads raw, L.parse raw with
  | true, some (.obj ms) =>
    match member? L "v" ms >>= L.swiftInt, member? L "type" ms >>= Json.string?,
      member? L "id" ms >>= Json.string?, member? L "ts" ms >>= L.swiftInt with
    | some v, some type, some id, some ts => .ok ⟨v,type,id,ts⟩
    | _, _, _, _ => .error .malformed
  | _, _ => .error .malformed

end Swift

/-! ## What each of them takes for the type -/

def typeStrings (ms : List Member) : List String :=
  ms.filterMap fun m => if Go.field? m.1 = some .type then m.2.string? else none

variable {L}

variable {e : Go.Envelope}

theorem Go.unmarshalMember_type {e' : Go.Envelope} {m : Member}
    (h : Go.unmarshalMember L e m=some e') (hm : Go.field? m.1=some .type) :
    e'.type=m.2.string?.getD e.type ∧ (m.2=.null ∨ ∃ s,m.2 = .str s) := by
  obtain ⟨key,value⟩:=m
  simp only [unmarshalMember,hm] at h
  cases value with
  | null =>
    cases h
    exact ⟨rfl,.inl rfl⟩
  | str s =>
    cases h
    exact ⟨rfl,.inr ⟨s,rfl⟩⟩
  | bool | num | arr | obj => cases h

theorem Go.unmarshalMember_other {e' : Go.Envelope} {m : Member}
    (h : Go.unmarshalMember L e m=some e') (hm : Go.field? m.1≠some .type) : e'.type=e.type := by
  unfold unmarshalMember at h
  split at h
  · cases h
    rfl
  · cases h
    rfl
  · cases h
    rfl
  · obtain ⟨n,-,rfl⟩:=Option.map_eq_some_iff.mp h
    rfl
  · obtain ⟨n,-,rfl⟩:=Option.map_eq_some_iff.mp h
    rfl
  next hf _ => exact absurd hf hm
  · cases h
    rfl
  · cases h

theorem getLast?_cons_getD {α : Type} (x : α) (xs : List α) (d : α) :
    (x::xs).getLast?.getD d=xs.getLast?.getD x := by
  cases xs with
  | nil => rfl
  | cons y ys => rw [List.getLast?_cons_cons,List.getLast?_cons,Option.getD_some,Option.getD_some]

variable {ms : List Member}

theorem Go.foldlM_type {e' : Go.Envelope} (h : ms.foldlM (Go.unmarshalMember L) e=some e') :
    e'.type=(typeStrings ms).getLast?.getD e.type ∧
      ∀ m∈ms,Go.field? m.1=some .type → m.2=.null ∨ ∃ s,m.2 = .str s := by
  induction ms generalizing e with
  | nil =>
    cases h
    exact ⟨rfl,fun m hm => absurd hm List.not_mem_nil⟩
  | cons m ms ih =>
    rw [List.foldlM_cons,Option.bind_eq_bind,Option.bind_eq_some_iff] at h
    obtain ⟨e₁,hstep,hrest⟩:=h
    obtain ⟨htype,hvalues⟩:=ih hrest
    rw [typeStrings,List.filterMap_cons,← typeStrings]
    by_cases hm : Go.field? m.1=some .type
    · obtain ⟨hone,hvalue⟩:=Go.unmarshalMember_type hstep hm
      constructor
      · rw [htype,hone,if_pos hm]
        cases hs : m.2.string? with
        | none => rfl
        | some s => exact (getLast?_cons_getD s _ _).symm
      · intro m' hm'
        cases List.mem_cons.mp hm' with
        | inl heq => exact fun _ => heq ▸ hvalue
        | inr hmem => exact hvalues m' hmem
    · constructor
      · rw [htype,Go.unmarshalMember_other hstep hm,if_neg hm]
      intro m' hm'
      cases List.mem_cons.mp hm' with
      | inl heq => exact fun hf => absurd (heq ▸ hf) hm
      | inr hmem => exact hvalues m' hmem

variable {raw : Bytes} {maxBytes : ℤ}

theorem Go.decode_eq_ok (h : Go.decode L raw maxBytes = .ok e) :
    (members L raw).foldlM (Go.unmarshalMember L) { payload := none }=some e ∧ e.type ≠ "" := by
  obtain ⟨hu,hversion,htype⟩:=Relay.Protocol.decode_eq_ok h
  constructor
  · unfold Go.unmarshal at hu
    unfold members
    split at hu
    · cases hu
      exact absurd hversion (by decide)
    next hp =>
      rw [hp]
      exact hu
    · cases hu
  · intro hempty
    rw [hempty] at htype
    exact absurd htype (by decide)

theorem Go.forward_eq_some {raw out : Bytes} (h : Go.forward L raw maxBytes=some (e,out)) :
    Go.decode L raw maxBytes = .ok e ∧ out=raw := by
  unfold Go.forward at h
  split at h
  next e' hd =>
    obtain ⟨out',ho,heq⟩:=Option.map_eq_some_iff.mp h
    unfold Go.onFrame at ho
    split at ho
    · cases ho
      cases heq
      exact ⟨hd,rfl⟩
    · cases ho
  · cases h

theorem Java.setProperty_name {e e' : Java.Envelope} {m : Member}
    (h : Java.setProperty L e m=some e') : ∃ f : Field,m.1=f.name := by
  cases hf : Field.all.find? fun f => m.1 == f.name with
  | none =>
    rw [Java.setProperty,hf] at h
    cases h
  | some f =>
    have hname:=List.find?_some (p := fun f : Field => m.1 == f.name) hf
    exact ⟨f,beq_iff_eq.mp hname⟩

theorem Field.find?_name (f : Field) : (Field.all.find? fun g => f.name == g.name)=some f := by
  cases f <;> decide

theorem Go.field?_name (f : Field) : Go.field? f.name=some f := by cases f <;> decide

theorem Java.setProperty_type {e e' : Java.Envelope} {m : Member}
    (h : Java.setProperty L e m=some e') :
    if m.1 = "type" then Java.text? L m.2=some e'.type else e'.type=e.type := by
  obtain ⟨f,hf⟩:=Java.setProperty_name h
  rw [Java.setProperty,hf,Field.find?_name] at h
  rw [hf]
  cases f with
  | v | id | ts =>
    rw [if_neg (by decide)]
    obtain ⟨n,-,rfl⟩:=Option.map_eq_some_iff.mp h
    rfl
  | type =>
    rw [if_pos (by decide)]
    obtain ⟨t,ht,rfl⟩:=Option.map_eq_some_iff.mp h
    exact ht
  | payload =>
    rw [if_neg (by decide)]
    cases h
    rfl

theorem Java.foldlM_name {e e' : Java.Envelope} (h : ms.foldlM (Java.setProperty L) e=some e') :
    ∀ m∈ms,∃ f : Field,m.1=f.name := by
  induction ms generalizing e with
  | nil => exact fun m hm => absurd hm List.not_mem_nil
  | cons m ms ih =>
    rw [List.foldlM_cons,Option.bind_eq_bind,Option.bind_eq_some_iff] at h
    obtain ⟨e₁,hstep,hrest⟩:=h
    intro m' hm'
    cases List.mem_cons.mp hm' with
    | inl heq => exact heq ▸ Java.setProperty_name hstep
    | inr hmem => exact ih hrest m' hmem

theorem Java.foldlM_type {e e' : Java.Envelope} (h : ms.foldlM (Java.setProperty L) e=some e') :
    ((named "type" ms).getLast?.map (Java.text? L)).getD (some e.type)=some e'.type := by
  induction ms generalizing e with
  | nil =>
    cases h
    rfl
  | cons m ms ih =>
    rw [List.foldlM_cons,Option.bind_eq_bind,Option.bind_eq_some_iff] at h
    obtain ⟨e₁,hstep,hrest⟩:=h
    have hone:=Java.setProperty_type hstep
    have hlast:=ih hrest
    rw [named,List.filterMap_cons,← named]
    split at hone
    next hm =>
      rw [if_pos hm]
      simp only
      rw [List.getLast?_cons,Option.map_some,Option.getD_some]
      cases hn : (named "type" ms).getLast? with
      | none =>
        rw [hn] at hlast
        rw [Option.getD_none,hone]
        exact hlast
      | some value =>
        rw [hn] at hlast
        exact hlast
    next hm =>
      rw [if_neg hm]
      rw [hone] at hlast
      exact hlast

theorem typeStrings_eq_named (h : ∀ m∈ms,∃ f : Field,m.1=f.name) :
    typeStrings ms=(named "type" ms).filterMap Json.string? := by
  rw [typeStrings,named,List.filterMap_filterMap]
  apply List.filterMap_congr
  intro m hm
  obtain ⟨f,hf⟩:=h m hm
  rw [hf,Go.field?_name]
  cases f <;> rfl

theorem mem_named {key : String} {value : Json} (h : value∈named key ms) : (key,value)∈ms := by
  obtain ⟨m,hm,hvalue⟩:=List.mem_filterMap.mp h
  split at hvalue
  next hkey =>
    cases hvalue
    rw [← hkey]
    exact hm
  · cases hvalue

theorem Java.decode_eq_ok {j : Java.Envelope} (h : Java.decode L raw = .ok j) :
    (members L raw).foldlM (Java.setProperty L) {} = some j := by
  cases hr : Java.readValue L raw with
  | none =>
    rw [Java.decode,hr] at h
    cases h
  | some e =>
    simp only [Java.decode,hr] at h
    split at h
    · cases h
    split at h
    · cases h
    cases h
    unfold Java.readValue at hr
    unfold members
    split at hr
    next hp =>
      rw [hp]
      exact hr
    · cases hr

theorem Swift.decode_eq_ok {s : Swift.Envelope} (h : Swift.decode L raw = .ok s) :
    Swift.member? L "type" (members L raw)=some (.str s.type) := by
  unfold Swift.decode at h
  unfold members
  split at h
  next hp =>
    rw [hp]
    split at h
    next htype _ _ =>
      cases h
      obtain ⟨value,hvalue,hstr⟩:=Option.bind_eq_some_iff.mp htype
      rw [hvalue]
      cases value with
      | str s =>
        cases hstr
        rfl
      | null | bool | num | arr | obj => cases hstr
    · cases h
  · cases h

theorem Go.typeStrings_getLast? (h : Go.decode L raw maxBytes = .ok e) :
    (typeStrings (members L raw)).getLast? = some e.type := by
  obtain ⟨hfold,hne⟩:=Go.decode_eq_ok h
  have htype:=(Go.foldlM_type hfold).1
  cases hlast : (typeStrings (members L raw)).getLast? with
  | none =>
    rw [hlast] at htype
    exact absurd htype hne
  | some s =>
    rw [hlast] at htype
    rw [htype]
    rfl

theorem Java.type_eq_iff {j : Java.Envelope} (he : Go.decode L raw maxBytes = .ok e)
    (hj : Java.decode L raw = .ok j) :
    j.type=some e.type ↔ (named "type" (members L raw)).getLast? ≠ some .null := by
  have hfold:=Java.decode_eq_ok hj
  have hlast:=Go.typeStrings_getLast? he
  rw [typeStrings_eq_named (Java.foldlM_name hfold)] at hlast
  have hjava:=Java.foldlM_type hfold
  have hgo:=(Go.foldlM_type (Go.decode_eq_ok he).1).2
  generalize members L raw=ms at hlast hjava hgo ⊢
  rcases List.eq_nil_or_concat (named "type" ms) with hnil | ⟨values,value,hvalues⟩
  · rw [hnil] at hlast
    cases hlast
  rw [hvalues,List.concat_eq_append,List.getLast?_concat] at hjava ⊢
  rw [hvalues,List.concat_eq_append,List.filterMap_append] at hlast
  have hmem : ("type",value)∈ms := mem_named (by rw [hvalues]; simp)
  cases hgo _ hmem (Go.field?_name .type) with
  | inl hnull =>
    simp only at hnull
    rw [hnull] at hjava ⊢
    have hnone : j.type=none := (Option.some.inj hjava).symm
    rw [hnone]
    simp
  | inr hstr =>
    obtain ⟨s,hs⟩:=hstr
    simp only at hs
    rw [hs] at hjava hlast ⊢
    have hsome : j.type=some s := (Option.some.inj hjava).symm
    have hs' : s=e.type := by simpa [Json.string?] using hlast
    rw [hsome,hs']
    simp

/-! ## The type of a forwarded frame -/

variable (L) in
/- Where the member stands that Swift reads: it is the first or the last of its key. -/
def Swift.Reads (key : String) (ms pre : List Member) (value : Json) (post : List Member) : Prop :=
  ms=pre ++ (key,value) :: post ∧ ∀ m ∈ if L.swiftKeepsFirst then pre else post, m.1≠key

theorem Swift.reads_of_member? {key : String} {value : Json}
    (h : Swift.member? L key ms=some value) : ∃ pre post,Swift.Reads L key ms pre value post := by
  have hother : ∀ m : Member,(if m.1=key then some m.2 else none)=none → m.1≠key := by
    intro m hm hkey
    rw [if_pos hkey] at hm
    cases hm
  have hsplit : ∀ ms rest,named key ms=value::rest → ∃ pre post,ms=pre++(key,value)::post ∧
      (∀ m∈pre,m.1≠key) ∧ named key post=rest := by
    intro ms rest hnamed
    obtain ⟨pre,m,post,rfl,hpre,hm,hpost⟩:=List.filterMap_eq_cons_iff.mp hnamed
    split at hm
    next hkey =>
      cases hm
      exact ⟨pre,post,by rw [← hkey],fun m' hm' => hother m' (hpre m' hm'),hpost⟩
    next => cases hm
  unfold Swift.member? at h
  unfold Swift.Reads
  split at h
  next hfirst =>
    obtain ⟨rest,hnamed⟩:=List.head?_eq_some_iff.mp h
    obtain ⟨pre,post,hms,hpre,-⟩:=hsplit ms rest hnamed
    exact ⟨pre,post,hms,by rwa [if_pos hfirst]⟩
  next hlast =>
    obtain ⟨init,hnamed⟩:=List.getLast?_eq_some_iff.mp h
    obtain ⟨ms₁,ms₂,rfl,-,hnamed₂⟩:=List.filterMap_eq_append_iff.mp hnamed
    obtain ⟨pre,post,rfl,-,hpost⟩:=hsplit ms₂ [] hnamed₂
    refine ⟨ms₁++pre,post,by rw [List.append_assoc],?_⟩
    rw [if_neg hlast]
    exact fun m hm => hother m (List.filterMap_eq_nil_iff.mp hpost m hm)

/- Of a frame that is forwarded as `env.type`, Jackson reads that type unless the last member
`type` is null, and Swift unless a string follows the member it reads, under any spelling of
the key, and the last such string is another one. -/
theorem forwarded_type_read (L : Libraries) (raw out : Bytes) (maxBytes : ℤ) (env : Go.Envelope)
    (hforward : Go.forward L raw maxBytes = some (env,out)) :
    (∀ j, Java.decode L out = .ok j →
      (j.type = some env.type ↔ (named "type" (members L raw)).getLast? ≠ some .null)) ∧
    ∀ s, Swift.decode L out = .ok s →
      ∃ pre post, Swift.Reads L "type" (members L raw) pre (.str s.type) post ∧
        (s.type=env.type ↔ ∀ t, (typeStrings post).getLast? = some t → t=s.type) := by
  obtain ⟨hgo,hout⟩ := Go.forward_eq_some hforward
  subst hout
  constructor
  · intro j hj
    exact Java.type_eq_iff hgo hj
  intro s hs
  obtain ⟨pre,post,hreads⟩ := Swift.reads_of_member? (Swift.decode_eq_ok hs)
  refine ⟨pre,post,hreads,?_⟩
  -- the relay takes the last string, and the member that Swift reads is one
  have hlast := Go.typeStrings_getLast? hgo
  have hstrings : typeStrings (members L out) = typeStrings pre ++ s.type :: typeStrings post := by
    have htype : Go.field? "type"=some .type := Go.field?_name .type
    rw [hreads.1,typeStrings,List.filterMap_append,List.filterMap_cons]
    simp only [htype,if_true,Json.string?]
    rfl
  rw [hstrings,List.getLast?_append_of_ne_nil _ (List.cons_ne_nil _ _),List.getLast?_cons] at hlast
  rw [← Option.some.inj hlast]
  cases (typeStrings post).getLast? with
  | none => simp
  | some t => simp [eq_comm]

def plainFrame : Bytes := utf8 "\x7b\"v\":1,\"type\":\"msg\",\"id\":\"m1\",\"ts\":0\x7d"

def respelledFrame : Bytes :=
  utf8 "\x7b\"v\":1,\"type\":\"sys\",\"Type\":\"msg\",\"id\":\"m1\",\"ts\":0\x7d"

def nulledFrame : Bytes :=
  utf8 "\x7b\"v\":1,\"type\":\"msg\",\"type\":null,\"id\":\"m1\",\"ts\":0\x7d"

def sampleLibraries : Libraries where
  parse raw :=
    if raw=plainFrame then
      some (.obj [("v",.num "1"),("type",.str "msg"),("id",.str "m1"),("ts",.num "0")])
    else if raw=respelledFrame then
      some (.obj [("v",.num "1"),("type",.str "sys"),("Type",.str "msg"),
        ("id",.str "m1"),("ts",.num "0")])
    else if raw=nulledFrame then
      some (.obj [("v",.num "1"),("type",.str "msg"),("type",.null),
        ("id",.str "m1"),("ts",.num "0")])
    else none
  jacksonReads _ := true
  swiftReads _ := true
  parseInt literal := if literal = "1" then some 1 else if literal = "0" then some 0 else none
  jacksonInt | .num literal => if literal = "1" then some 1 else none | _ => none
  jacksonLong | .num literal => if literal = "0" then some 0 else none | _ => none
  jacksonText _ := none
  swiftInt | .num literal => if literal = "1" then some 1 else some 0 | _ => none
  swiftKeepsFirst := false

theorem forwarded_type_read_plainFrame :
    Go.forward sampleLibraries plainFrame 0 = some (⟨1,"msg","m1",0,none⟩,plainFrame) ∧
    (∀ j, Java.decode sampleLibraries plainFrame = .ok j → j.type = some "msg") ∧
    ∀ s, Swift.decode sampleLibraries plainFrame = .ok s → s.type = "msg" := by
  have hforward :
      Go.forward sampleLibraries plainFrame 0 = some (⟨1,"msg","m1",0,none⟩,plainFrame) := rfl
  have hread := forwarded_type_read sampleLibraries plainFrame plainFrame 0 _ hforward
  refine ⟨hforward,fun j hj => (hread.1 j hj).mpr (fun h => nomatch h),?_⟩
  intro s hs
  cases hs
  rfl

/- Both frames are forwarded as a `msg`; the Swift SDK reads a `sys` in the first, the
Java SDK an envelope without a type in the second. -/
theorem forwarded_type_misread :
    ((∃ env, Go.forward sampleLibraries respelledFrame 0 = some (env,respelledFrame) ∧
        env.type = typeMsg) ∧
      ∃ s, Swift.decode sampleLibraries respelledFrame = .ok s ∧ s.type=typeSys) ∧
    ((∃ env, Go.forward sampleLibraries nulledFrame 0 = some (env,nulledFrame) ∧
        env.type = typeMsg) ∧
      ∃ j, Java.decode sampleLibraries nulledFrame = .ok j ∧ j.type=none) :=
  ⟨⟨⟨_,rfl,rfl⟩,_,rfl,rfl⟩,⟨_,rfl,rfl⟩,_,rfl,rfl⟩

end SecureGateway.Envelopes
