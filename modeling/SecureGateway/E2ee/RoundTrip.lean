import SecureGateway.E2ee.Scheme

/-!
# Key agreement and round trip between the two implementations

A pair of endpoints, each a session of the SDK or of the Go package. Whether `open` lets a
message through depends on the window; `Endpoint.Heard` says what the window can know, so a
message with a new id that is not too far behind those before passes.
-/

namespace SecureGateway.E2ee
open Outcome ReplayWindow

/-! ### Windows over the spelling of an id -/

section Spelled
variable {κ : Type} [Ord κ] [Std.TransOrd κ] {spell : String → κ} {w : Window κ}
  {past : String → Int64 → Prop} {id : String} {ts : Int64}

/- `past` by the keys under which a window knows the ids. -/
def spelled (spell : String → κ) (past : String → Int64 → Prop) (k : κ) (ts : Int64) : Prop :=
  ∃ id, spell id = k ∧ past id ts

theorem allows_spelled (hspell : ∀ s t,spell s=spell t → s=t) (h : w.Heard (spelled spell past))
    (hnew : ∀ t,¬ past id t)
    (htime : ∀ i t,past i t → 0≤t ∧ t.toInt - replayWindowMillis.toInt≤ts.toInt) :
    w.Allows replayWindowMillis (spell id) ts := by
  apply Window.allows_of_heard replayWindowMillis_nonneg h
  · intro t hpast
    obtain ⟨i,hi,hpast⟩:=hpast
    rw [hspell i id hi] at hpast
    exact hnew t hpast
  · intro k t hpast
    obtain ⟨i,-,hpast⟩:=hpast
    exact htime i t hpast

theorem heard_spelled [Std.LawfulEqOrd κ] [DecidableEq κ] {width : Int64}
    (h : w.Heard (spelled spell past)) :
    (w.accept width (spell id) ts).Heard (spelled spell fun i t => past i t ∨ i=id ∧ t=ts) := by
  apply (Window.heard_accept h (spell id) ts).mono
  intro k t hpast
  cases hpast with
  | inl hold =>
    obtain ⟨i,hi,hpast⟩:=hold
    exact ⟨i,hi,.inl hpast⟩
  | inr hthis => exact ⟨id,hthis.1.symm,.inr ⟨rfl,hthis.2⟩⟩

end Spelled

/-! ### Endpoints -/

inductive Implementation
  | sdk
  | go
  deriving DecidableEq

inductive Failure
  | sdk (thrown : Thrown)
  | go (error : String)

inductive Endpoint
  | sdk (s : Session)
  | go (s : Go.Session)

abbrev Nonce := {b : Bytes // b.length = nonceSize}

namespace Implementation
variable (N : Native) (L : Go.Library)

def publicFromPrivate (i : Implementation) (priv : Go.Key) : Except Failure Bytes :=
  match i with
  | sdk => (E2ee.publicFromPrivate N priv).mapError .sdk
  | go => ((Go.publicFromPrivate L priv).map Subtype.val).mapError .go

def newSession (i : Implementation) (idPriv peerIdPub ephPriv peerEphPub : Go.Key)
    (role : Role) : Except Failure Endpoint :=
  match i with
  | sdk => ((Session.create N idPriv peerIdPub ephPriv peerEphPub role).map .sdk).mapError .sdk
  | go =>
    ((Go.newSession L idPriv peerIdPub ephPriv peerEphPub role.wire).map .go).mapError .go

end Implementation

namespace Endpoint

def sendKey : Endpoint → Bytes
  | sdk s => s.sendKey
  | go s => s.sendKey

def recvKey : Endpoint → Bytes
  | sdk s => s.recvKey
  | go s => s.recvKey

variable (N : Native) (L : Go.Library)

def sealMessage (e : Endpoint) (nonce : Nonce) (id : String) (ts : Int64) (plaintext : Bytes) :
    Except Failure Bytes :=
  match e with
  | sdk s => (s.sealWith N nonce (utf16 id) ts plaintext).mapError .sdk
  | go s => (s.sealRandom L (.ok nonce) (utf8 id) ts plaintext).mapError .go

def openWire (e : Endpoint) (id : String) (ts : Int64) (wire : Bytes) :
    Except Failure (Bytes × Endpoint) :=
  match e with
  | sdk s => ((s.openWire N (utf16 id) ts wire).map fun r => (r.1,.sdk r.2)).mapError .sdk
  | go s => ((s.openWire L (utf8 id) ts wire).map fun r => (r.1,.go r.2)).mapError .go

def Regular (e : Endpoint) : Prop :=
  e.sendKey.length = keySize ∧ e.recvKey.length=keySize ∧
    match e with
    | sdk _ => True
    | go s => s.recv.window = replayWindowMillis

/- What the window has let through; `past id ts`: such a message has been received. -/
def Heard (e : Endpoint) (past : String → Int64 → Prop) : Prop :=
  match e with
  | sdk s => s.window.Heard (spelled utf16 past)
  | go s => s.recv.abs.Heard (spelled utf8 past)

theorem Heard.mono {e : Endpoint} {past past' : String → Int64 → Prop} (h : e.Heard past)
    (hsub : ∀ id ts,past id ts → past' id ts) : e.Heard past' := by
  cases e with
  | sdk s => exact Window.Heard.mono h fun k ts ⟨id,hk,hid⟩ => ⟨id,hk,hsub id ts hid⟩
  | go s => exact Window.Heard.mono h fun k ts ⟨id,hk,hid⟩ => ⟨id,hk,hsub id ts hid⟩

end Endpoint

def Scheme.wire (P : Scheme) (key nonce : Bytes) (id : String) (ts : Int64) (pt : Bytes) : Bytes :=
  nonce ++ P.encrypt key nonce (utf8 id ++ putLong ts) pt

variable {N : Native} {L : Go.Library} {P : Scheme}

theorem Session.sealWith_eq (hN : N.Implements P) {s : Session} (hkey : s.sendKey.length=keySize)
    (nonce : Nonce) (id : String) (ts : Int64) (pt : Bytes) :
    s.sealWith N nonce (utf16 id) ts pt = .ok (P.wire s.sendKey nonce id ts pt) := by
  unfold Session.sealWith aeadEncrypt requireLen
  rw [hkey,nonce.2,hN.encrypt _ _ _ _ hkey nonce.2,aad,getBytes_utf16]
  rfl

theorem Go.Session.sealRandom_eq (hL : L.Implements P) (s : Go.Session) (nonce : Nonce)
    (id : String) (ts : Int64) (pt : Bytes) :
    s.sealRandom L (.ok nonce) (utf8 id) ts pt = .ok (P.wire s.sendKey nonce id ts pt) := by
  have hlen : ¬ nonce.1.length≠nonceSize := not_not_intro nonce.2
  show s.sealWith L nonce (utf8 id) ts pt = _
  rw [Go.Session.sealWith,if_neg hlen,hL.encrypt _ _ _ _ s.sendKey.2 nonce.2]
  rfl

theorem wire_split (key : Bytes) (nonce : Nonce) (id : String) (ts : Int64) (pt : Bytes) :
    ¬ (P.wire key nonce id ts pt).length<nonceSize ∧
      (P.wire key nonce id ts pt).take nonceSize=nonce ∧
      (P.wire key nonce id ts pt).drop nonceSize=P.encrypt key nonce (utf8 id++putLong ts) pt := by
  have hn:=nonce.2
  refine ⟨?_,List.take_left' hn,List.drop_left' hn⟩
  rw [Scheme.wire,List.length_append]
  omega

theorem aeadDecrypt_encrypt (hP : P.Lawful) (hN : N.Implements P) {key nonce : Bytes}
    (hkey : key.length=keySize) (hnonce : nonce.length=nonceSize) (aad pt : Bytes) :
    aeadDecrypt N key nonce aad (P.encrypt key nonce aad pt) = .ok pt := by
  have hlen:=hP.encrypt_length key nonce aad pt hkey hnonce
  have hlong : ¬ (P.encrypt key nonce aad pt).length<tagSize := by omega
  unfold aeadDecrypt requireLen
  rw [hkey,hnonce,if_neg hlong,hN.decrypt _ _ _ _ hkey hnonce,
    hP.decrypt_encrypt _ _ _ _ hkey hnonce]
  rfl

theorem Session.openWire_wire (hP : P.Lawful) (hN : N.Implements P) {s : Session}
    (hkey : s.recvKey.length=keySize) (nonce : Nonce) {id : String} {ts : Int64} (pt : Bytes)
    (hallows : s.window.Allows replayWindowMillis (utf16 id) ts) :
    s.openWire N (utf16 id) ts (P.wire s.recvKey nonce id ts pt) =
      .ok (pt,s.accept (utf16 id) ts) := by
  apply (Session.openWire_eq_ok N s _ (utf16 id) ts _ pt).mpr
  obtain ⟨hlen,htake,hdrop⟩:=wire_split (P := P) s.recvKey nonce id ts pt
  rw [htake,hdrop,aad,getBytes_utf16]
  exact ⟨hlen,aeadDecrypt_encrypt hP hN hkey nonce.2 _ pt,
    (Session.checkReplay_eq_ok_window s _ (utf16 id) ts).mpr ⟨hallows,rfl⟩⟩

theorem Go.Session.openWire_wire (hP : P.Lawful) (hL : L.Implements P) {s : Go.Session}
    (nonce : Nonce) {id : String} {ts : Int64} (pt : Bytes)
    (hallows : s.recv.abs.Allows s.recv.window (utf8 id) ts) :
    s.openWire L (utf8 id) ts (P.wire s.recvKey nonce id ts pt) =
      .ok (pt,{ s with recv := s.recv.accept (utf8 id) ts }) := by
  obtain ⟨hlen,htake,hdrop⟩:=wire_split (P := P) s.recvKey nonce id ts pt
  have hopen:=hL.decrypt s.recvKey nonce (utf8 id++putLong ts)
    (P.encrypt s.recvKey nonce (utf8 id++putLong ts) pt) s.recvKey.2 nonce.2
  rw [hP.decrypt_encrypt _ _ _ _ s.recvKey.2 nonce.2,toOption_eq_some] at hopen
  apply (Go.Session.openWire_eq_ok L s _ (utf8 id) ts _ pt).mpr
  rw [htake,hdrop]
  exact ⟨hlen,hopen,_,(Go.ReplayGuard.check_eq_ok _ _ _ _).mpr ⟨hallows,rfl⟩,rfl⟩

namespace Endpoint

theorem sealMessage_eq (hN : N.Implements P) (hL : L.Implements P) {e : Endpoint} (he : e.Regular)
    (nonce : Nonce) (id : String) (ts : Int64) (pt : Bytes) :
    e.sealMessage N L nonce id ts pt = .ok (P.wire e.sendKey nonce id ts pt) := by
  cases e with
  | sdk s =>
    show (s.sealWith N nonce (utf16 id) ts pt).mapError _ = _
    rw [Session.sealWith_eq hN he.1]
    rfl
  | go s =>
    show (s.sealRandom L _ (utf8 id) ts pt).mapError _ = _
    rw [Go.Session.sealRandom_eq hL]
    rfl

theorem openWire_wire (hP : P.Lawful) (hN : N.Implements P) (hL : L.Implements P) {e : Endpoint}
    (he : e.Regular) {past : String → Int64 → Prop} (h : e.Heard past) (nonce : Nonce)
    {id : String} {ts : Int64} (pt : Bytes) (hnew : ∀ t,¬ past id t)
    (htime : ∀ i t,past i t → 0≤t ∧ t.toInt - replayWindowMillis.toInt≤ts.toInt) :
    ∃ e',e.openWire N L id ts (P.wire e.recvKey nonce id ts pt) = .ok (pt,e') ∧
      e'.sendKey=e.sendKey ∧ e'.recvKey=e.recvKey ∧ e'.Regular ∧
      e'.Heard fun i t => past i t ∨ i=id ∧ t=ts := by
  cases e with
  | sdk s =>
    have hallows : s.window.Allows replayWindowMillis (utf16 id) ts :=
      allows_spelled utf16_injective h hnew htime
    have hheard : (s.window.accept replayWindowMillis (utf16 id) ts).Heard _ := heard_spelled h
    refine ⟨.sdk (s.accept (utf16 id) ts),?_,rfl,rfl,he,hheard⟩
    show ((s.openWire N (utf16 id) ts (P.wire s.recvKey nonce id ts pt)).map _).mapError _ = _
    rw [Session.openWire_wire hP hN he.2.1 nonce pt hallows]
    rfl
  | go s =>
    have hw : s.recv.window=replayWindowMillis := he.2.2
    have hallows : s.recv.abs.Allows s.recv.window (utf8 id) ts := by
      rw [hw]
      exact allows_spelled utf8_injective h hnew htime
    have hheard : (s.recv.abs.accept s.recv.window (utf8 id) ts).Heard _ := heard_spelled h
    refine ⟨.go { s with recv := s.recv.accept (utf8 id) ts },?_,rfl,rfl,he,hheard⟩
    show ((s.openWire L (utf8 id) ts (P.wire s.recvKey nonce id ts pt)).map _).mapError _ = _
    rw [Go.Session.openWire_wire hP hL nonce pt hallows]
    rfl

end Endpoint

/-! ### A conversation -/

structure Message where
  sender : Role
  id : String
  ts : Int64
  nonce : Nonce
  plaintext : Bytes

abbrev Link := Role → Endpoint

namespace Link

def of (mobile desktop : Endpoint) : Link
  | .mobile => mobile
  | .desktop => desktop

variable (N : Native) (L : Go.Library)

def transfer (l : Link) (m : Message) : Except Failure (Bytes × Link) := do
  let wire ← (l m.sender).sealMessage N L m.nonce m.id m.ts m.plaintext
  let (pt,e) ← (l m.sender.peer).openWire N L m.id m.ts wire
  return (pt,Function.update l m.sender.peer e)

def transferAll (l : Link) : List Message → Except Failure (List Bytes)
  | [] => return []
  | m :: ms => do
    let (pt,l') ← l.transfer N L m
    let pts ← transferAll l' ms
    return pt :: pts

end Link

def Follows (earlier later : Message) : Prop :=
  earlier.sender = later.sender → earlier.id≠later.id ∧
    earlier.ts.toInt - replayWindowMillis.toInt ≤ later.ts.toInt

instance : DecidableRel Follows :=
  fun a b => inferInstanceAs (Decidable (a.sender=b.sender → _ ∧ _))

def WellTimed (ms : List Message) : Prop :=
  (∀ m ∈ ms, 0 ≤ m.ts) ∧ ms.Pairwise Follows

instance (ms : List Message) : Decidable (WellTimed ms) :=
  inferInstanceAs (Decidable (_ ∧ _))

def sentBy (role : Role) (past : List Message) (id : String) (ts : Int64) : Prop :=
  ∃ m ∈ past, m.sender=role ∧ m.id=id ∧ m.ts=ts

structure Link.Ready (l : Link) (past : List Message) : Prop where
  regular : ∀ role, (l role).Regular
  keys : ∀ role, (l role).sendKey = (l role.peer).recvKey
  heard : ∀ role, (l role.peer).Heard (sentBy role past)

theorem Link.transfer_ready (hP : P.Lawful) (hN : N.Implements P) (hL : L.Implements P) {l : Link}
    {past : List Message} (h : l.Ready past) {m : Message} (hpast : ∀ a∈past,0≤a.ts)
    (hm : ∀ a∈past,Follows a m) :
    ∃ l',l.transfer N L m = .ok (m.plaintext,l') ∧ l'.Ready (m::past) := by
  have hnew : ∀ t,¬ sentBy m.sender past m.id t := by
    intro t hsent
    obtain ⟨a,ha,hsender,hid,-⟩:=hsent
    exact (hm a ha hsender).1 hid
  have htime : ∀ i t,sentBy m.sender past i t →
      0≤t ∧ t.toInt - replayWindowMillis.toInt ≤ m.ts.toInt := by
    intro i t hsent
    obtain ⟨a,ha,hsender,-,hts⟩:=hsent
    rw [← hts]
    exact ⟨hpast a ha,(hm a ha hsender).2⟩
  obtain ⟨e,hopen,hsend,hrecv,hregular,hheard⟩ :=
    Endpoint.openWire_wire hP hN hL (h.regular m.sender.peer) (h.heard m.sender) m.nonce
      m.plaintext hnew htime
  have hsame : ∀ role,(Function.update l m.sender.peer e role).sendKey=(l role).sendKey ∧
      (Function.update l m.sender.peer e role).recvKey=(l role).recvKey := by
    intro role
    by_cases hrole : role=m.sender.peer
    · rw [hrole,Function.update_self]
      exact ⟨hsend,hrecv⟩
    · rw [Function.update_of_ne hrole]
      exact ⟨rfl,rfl⟩
  refine ⟨Function.update l m.sender.peer e,?_,?_,?_,?_⟩
  · rw [Link.transfer,Endpoint.sealMessage_eq hN hL (h.regular m.sender),h.keys m.sender]
    show ((l m.sender.peer).openWire N L m.id m.ts _ >>= _) = _
    rw [hopen]
    rfl
  · intro role
    by_cases hrole : role=m.sender.peer
    · rw [hrole,Function.update_self]
      exact hregular
    · rw [Function.update_of_ne hrole]
      exact h.regular role
  · intro role
    rw [(hsame role).1,(hsame role.peer).2]
    exact h.keys role
  · intro role
    cases Role.eq_or_eq_peer m.sender role with
    | inl hrole =>
      rw [hrole,Function.update_self]
      apply hheard.mono
      intro id ts hsent
      cases hsent with
      | inl hold =>
        obtain ⟨a,ha,hrest⟩:=hold
        exact ⟨a,List.mem_cons_of_mem m ha,hrest⟩
      | inr hthis => exact ⟨m,List.mem_cons_self,rfl,hthis.1.symm,hthis.2.symm⟩
    | inr hrole =>
      rw [hrole,Role.peer_peer,Function.update_of_ne (Role.peer_ne m.sender).symm]
      have hother:=h.heard m.sender.peer
      rw [Role.peer_peer] at hother
      apply hother.mono
      intro id ts hold
      obtain ⟨a,ha,hrest⟩:=hold
      exact ⟨a,List.mem_cons_of_mem m ha,hrest⟩

theorem Link.transferAll_ready (hP : P.Lawful) (hN : N.Implements P) (hL : L.Implements P)
    {l : Link} {past ms : List Message} (h : l.Ready past) (hpast : ∀ a∈past,0≤a.ts)
    (hfollow : ∀ a∈past,∀ m∈ms,Follows a m) (hms : WellTimed ms) :
    l.transferAll N L ms = .ok (ms.map Message.plaintext) := by
  induction ms generalizing l past with
  | nil => rfl
  | cons m ms ih =>
    obtain ⟨hnonneg,hpairs⟩:=hms
    obtain ⟨hnext,hrest⟩:=List.pairwise_cons.mp hpairs
    obtain ⟨l',htransfer,hready⟩ :=
      Link.transfer_ready hP hN hL h hpast fun a ha => hfollow a ha m List.mem_cons_self
    have hlater : l'.transferAll N L ms = .ok (ms.map Message.plaintext) := by
      apply ih hready
      · intro a ha
        cases List.mem_cons.mp ha with
        | inl heq => exact heq ▸ hnonneg m List.mem_cons_self
        | inr hmem => exact hpast a hmem
      · intro a ha b hb
        cases List.mem_cons.mp ha with
        | inl heq => exact heq ▸ hnext b hb
        | inr hmem => exact hfollow a hmem b (List.mem_cons_of_mem m hb)
      · exact ⟨fun a ha => hnonneg a (List.mem_cons_of_mem m ha),hrest⟩
    rw [Link.transferAll,htransfer]
    show (l'.transferAll N L ms >>= _) = _
    rw [hlater]
    rfl

/-! ### The sessions of a pair -/

structure KeyPair (N : Native) (L : Go.Library) (i : Implementation) where
  priv : Go.Key
  pub : Go.Key
  isPub : i.publicFromPrivate N L priv = .ok pub.1

variable {i : Implementation}

theorem KeyPair.pub_eq (hP : P.Lawful) (hN : N.Implements P) (hL : L.Implements P)
    (k : KeyPair N L i) : k.pub.1=P.publicKey k.priv := by
  have hpub:=(toOption_eq_some _ _).mpr k.isPub
  cases i with
  | sdk =>
    rw [Implementation.publicFromPrivate,toOption_mapError,toOption_eq_some] at hpub
    exact publicFromPrivate_eq hN k.priv.2 hpub
  | go =>
    rw [Implementation.publicFromPrivate,toOption_mapError,toOption_map,
      Option.map_eq_some_iff] at hpub
    obtain ⟨pub,hok,heq⟩:=hpub
    rw [← heq]
    exact Go.publicFromPrivate_eq hP hL ((toOption_eq_some _ _).mp hok)

theorem Implementation.newSession_eq (hN : N.Implements P) (hL : L.Implements P)
    (idPriv peerIdPub : Go.Key) (eph : KeyPair N L i) (peerEphPub : Go.Key) (role : Role) :
    (i.newSession N L idPriv peerIdPub eph.priv peerEphPub role).toOption.map
        (fun e => (e.sendKey,e.recvKey)) =
      P.sessionKeys idPriv peerIdPub eph.priv eph.pub peerEphPub role := by
  have hpub:=(toOption_eq_some _ _).mpr eph.isPub
  cases i with
  | sdk =>
    rw [Implementation.publicFromPrivate,toOption_mapError,toOption_eq_some] at hpub
    rw [Implementation.newSession,toOption_mapError,toOption_map,Option.map_map,
      Session.create_eq hN idPriv.2 peerIdPub.2 eph.priv.2 peerEphPub.2 hpub role,Option.map_map]
    exact Option.map_id'
  | go =>
    rw [Implementation.publicFromPrivate,toOption_mapError,toOption_map,
      Option.map_eq_some_iff] at hpub
    obtain ⟨pub,hok,heq⟩:=hpub
    rw [← heq]
    rw [Implementation.newSession,toOption_mapError,toOption_map,Option.map_map,
      ← Go.newSession_eq hL ((toOption_eq_some _ _).mp hok) role]
    rfl

theorem Implementation.newSession_window {idPriv peerIdPub ephPriv : Go.Key} {peerEphPub : Go.Key}
    {role : Role} {e : Endpoint}
    (h : i.newSession N L idPriv peerIdPub ephPriv peerEphPub role = .ok e) :
    match e with
    | .sdk s => s.window=Window.empty
    | .go s => s.recv=Go.newReplayGuard replayWindowMillis := by
  rw [← toOption_eq_some] at h
  cases i with
  | sdk =>
    rw [newSession,toOption_mapError,toOption_map] at h
    obtain ⟨s,hs,heq⟩:=Option.map_eq_some_iff.mp h
    cases heq
    exact Session.create_window ((toOption_eq_some _ _).mp hs)
  | go =>
    rw [newSession,toOption_mapError,toOption_map] at h
    obtain ⟨s,hs,heq⟩:=Option.map_eq_some_iff.mp h
    cases heq
    exact Go.newSession_recv ((toOption_eq_some _ _).mp hs)

theorem Implementation.newSession_regular (hN : N.Implements P) (hL : L.Implements P)
    {idPriv peerIdPub peerEphPub : Go.Key} {eph : KeyPair N L i} {role : Role} {e : Endpoint}
    (h : i.newSession N L idPriv peerIdPub eph.priv peerEphPub role = .ok e) :
    P.sessionKeys idPriv peerIdPub eph.priv eph.pub peerEphPub role =
      some (e.sendKey,e.recvKey) ∧ e.Regular ∧ ∀ past,e.Heard past := by
  have hkdf : ∀ ikm salt info,(P.hkdf ikm salt info).length=keySize :=
    fun ikm salt info => (hL.hkdf ikm salt info).1
  have hkeys:=newSession_eq hN hL idPriv peerIdPub eph peerEphPub role
  rw [h,(toOption_eq_some _ _).mpr rfl,Option.map_some] at hkeys
  have hlen:=Scheme.sessionKeys_length hkdf hkeys.symm
  have hwindow:=newSession_window h
  refine ⟨hkeys.symm,?_⟩
  cases e with
  | sdk s =>
    refine ⟨⟨hlen.1,hlen.2,trivial⟩,?_⟩
    intro past
    show s.window.Heard _
    rw [hwindow]
    exact Window.heard_empty
  | go s =>
    refine ⟨⟨hlen.1,hlen.2,?_⟩,?_⟩
    · show s.recv.window = _
      rw [hwindow]
      rfl
    · intro past
      show s.recv.abs.Heard _
      rw [hwindow]
      exact Window.heard_empty

theorem Implementation.exists_newSession_iff (hN : N.Implements P) (hL : L.Implements P)
    (idPriv peerIdPub : Go.Key) (eph : KeyPair N L i) (peerEphPub : Go.Key) (role : Role) :
    (∃ e,i.newSession N L idPriv peerIdPub eph.priv peerEphPub role = .ok e) ↔
      ∃ k,P.sessionKeys idPriv peerIdPub eph.priv eph.pub peerEphPub role=some k := by
  constructor
  · intro h
    obtain ⟨e,he⟩:=h
    exact ⟨_,(newSession_regular hN hL he).1⟩
  intro h
  obtain ⟨k,hk⟩:=h
  have hkeys:=newSession_eq hN hL idPriv peerIdPub eph peerEphPub role
  rw [hk] at hkeys
  obtain ⟨e,he,-⟩:=Option.map_eq_some_iff.mp hkeys
  exact ⟨e,(toOption_eq_some _ _).mp he⟩

/-- Two devices, each with either implementation, that are given each other's public
keys: a session is made on both sides or on neither, the keys are crossed, and every
message of a conversation in both directions is opened to what was sealed. -/
theorem sessions_agree_and_round_trip (P : Scheme) (hP : P.Lawful) (N : Native)
    (hN : N.Implements P) (L : Go.Library) (hL : L.Implements P)
    (mobile desktop : Implementation) (idM ephM : KeyPair N L mobile)
    (idD ephD : KeyPair N L desktop) :
    ((∃ m, mobile.newSession N L idM.priv idD.pub ephM.priv ephD.pub .mobile = .ok m) ↔
      ∃ d, desktop.newSession N L idD.priv idM.pub ephD.priv ephM.pub .desktop = .ok d) ∧
    ∀ m d, mobile.newSession N L idM.priv idD.pub ephM.priv ephD.pub .mobile = .ok m →
      desktop.newSession N L idD.priv idM.pub ephD.priv ephM.pub .desktop = .ok d →
      m.sendKey = d.recvKey ∧ m.recvKey=d.sendKey ∧
      ∀ ms, WellTimed ms → (Link.of m d).transferAll N L ms = .ok (ms.map Message.plaintext) := by
  have hmobile := Scheme.sessionKeys_mobile hP idM.priv ephD.priv ephM.priv.2 idD.priv.2
  have hdesktop := Scheme.sessionKeys_desktop hP idM.priv.2 ephM.priv.2 idD.priv.2 ephD.priv.2
  rw [← idD.pub_eq hP hN hL,← ephM.pub_eq hP hN hL,← ephD.pub_eq hP hN hL] at hmobile
  rw [← idM.pub_eq hP hN hL,← ephM.pub_eq hP hN hL,← ephD.pub_eq hP hN hL] at hdesktop
  constructor
  · rw [Implementation.exists_newSession_iff hN hL,Implementation.exists_newSession_iff hN hL,
      hmobile,hdesktop]
    cases P.pairKeys idM.priv ephM.priv idD.priv ephD.priv with
    | none => simp
    | some k => simp
  intro m d hm hd
  obtain ⟨hkm,hregularM,hheardM⟩ := Implementation.newSession_regular hN hL hm
  obtain ⟨hkd,hregularD,hheardD⟩ := Implementation.newSession_regular hN hL hd
  rw [hmobile] at hkm
  rw [hdesktop,hkm,Option.map_some,Option.some.injEq,Prod.swap_prod_mk,Prod.mk.injEq] at hkd
  have hsend : m.sendKey=d.recvKey := hkd.2
  have hrecv : m.recvKey=d.sendKey := hkd.1
  refine ⟨hsend,hrecv,?_⟩
  intro ms hms
  have hready : (Link.of m d).Ready [] := by
    constructor
    · intro role
      cases role with
      | mobile => exact hregularM
      | desktop => exact hregularD
    · intro role
      cases role with
      | mobile => exact hsend
      | desktop => exact hrecv.symm
    · intro role
      cases role with
      | mobile => exact hheardD _
      | desktop => exact hheardM _
  apply Link.transferAll_ready hP hN hL hready
  · intro a ha
    cases ha
  · intro a ha
    cases ha
  · exact hms

/-! A small instance: X25519 adds bytes, the AEAD appends half of its key, and the MAC is
its key. -/

namespace Sample

def pad (b : Bytes) : Bytes := List.ofFn fun i : Fin keySize => b.getD i 0

def add (a b : Bytes) : Bytes := List.ofFn fun i : Fin keySize => a.getD i 0 + b.getD i 0

def encrypt (key _nonce _aad pt : Bytes) : Bytes := pt ++ key.take tagSize

def decrypt (key _nonce _aad ct : Bytes) : Option Bytes :=
  if ct.drop (ct.length - tagSize) = key.take tagSize then some (ct.take (ct.length - tagSize))
  else none

def native : Native where
  cryptoScalarMultBase priv := some (add priv [])
  cryptoScalarMult priv pub := some (add priv pub)
  hmacSha256 key _ := pad key
  aeadXChaCha20Poly1305Encrypt key nonce aad pt := some (encrypt key nonce aad pt)
  aeadXChaCha20Poly1305Decrypt := decrypt

theorem derive_length (ikm salt info : Bytes) :
    (Hkdf.derive native ikm salt info keySize).length=keySize := by
  simp [Hkdf.derive,Hkdf.expand,keySize,Hkdf.expandLoop,native,pad]

def scheme : Scheme where
  x25519 := add
  basepoint := []
  hkdf ikm salt info := Hkdf.derive native ikm salt info keySize
  encrypt := encrypt
  decrypt := decrypt

def library : Go.Library where
  x25519 priv pub :=
    if isAllZero (add priv pub) then .error "low order point" else .ok (add priv pub)
  basepoint := []
  hkdf ikm salt info n :=
    if h : n=keySize then
      .ok ⟨Hkdf.derive native ikm salt info keySize,h ▸ derive_length ikm salt info⟩
    else .error "hkdf: entropy limit reached"
  aeadSeal key nonce pt aad := encrypt key nonce aad pt
  aeadOpen key nonce ct aad :=
    match decrypt key nonce aad ct with
    | some pt => .ok pt
    | none => .error "chacha20poly1305: message authentication failed"
  quoted s := s

theorem scheme_lawful : scheme.Lawful where
  x25519_length _ _ _ := List.length_ofFn
  agree a b _ _ := by
    simp only [scheme,Scheme.publicKey,add,List.getD_eq_getElem?_getD,List.getElem?_ofFn,
      Fin.is_lt,dite_true,Option.getD_some,List.getElem?_nil,Option.getD_none,UInt8.add_zero]
    congr 1
    funext i
    exact UInt8.add_comm _ _
  encrypt_length key _ _ pt hkey _ := by simp [scheme,encrypt,hkey,keySize,tagSize]
  decrypt_encrypt key _ _ pt hkey _ := by
    have htag : (key.take tagSize).length=tagSize := by simp [hkey,keySize,tagSize]
    simp [scheme,encrypt,decrypt,htag]

theorem native_implements : native.Implements scheme where
  base _ _ _ h := (Option.some.inj h).symm
  mult _ _ _ _ := .inl rfl
  hkdf _ _ _ := rfl
  encrypt _ _ _ _ _ _ := rfl
  decrypt _ _ _ _ _ _ := rfl

theorem library_implements : library.Implements scheme where
  base _ _ _ h := by
    simp only [library] at h
    split at h
    · cases h
    · exact (Except.ok.inj h).symm
  mult priv pub _ _ := by
    show (if isAllZero (add priv pub) then Except.error "low order point"
      else .ok (add priv pub)).toOption =
        if isAllZero (add priv pub) then none else some (add priv pub)
    by_cases hzero : isAllZero (add priv pub)=true
    · rw [if_pos hzero,if_pos hzero]
      rfl
    · rw [if_neg hzero,if_neg hzero]
      rfl
  hkdf ikm salt info := ⟨derive_length ikm salt info,rfl⟩
  encrypt _ _ _ _ _ _ := rfl
  decrypt _ _ _ _ _ _ := by
    simp only [library,scheme]
    split
    next h =>
      rw [h]
      rfl
    next h =>
      rw [h]
      rfl

def key (b : UInt8) : Go.Key := ⟨List.replicate keySize b,List.length_replicate⟩

def sdkPair (b : UInt8) : KeyPair native library .sdk :=
  ⟨key b,⟨add (key b) [],List.length_ofFn⟩,rfl⟩

def goPair (b : UInt8) (h : isAllZero (add (key b) []) = false) : KeyPair native library .go :=
  ⟨key b,Go.copyKey (add (key b) []),by
    simp only [Implementation.publicFromPrivate,Go.publicFromPrivate,library,h]
    rfl⟩

def nonce : Nonce := ⟨List.replicate nonceSize 9,List.length_replicate⟩

def conversation : List Message :=
  [⟨.mobile,"a",400000,nonce,[1]⟩,⟨.desktop,"a",5,nonce,[]⟩,
    ⟨.mobile,"b",100000,nonce,[2,3]⟩]

end Sample

section
open Sample

theorem sessions_agree_and_round_trip_sdkAndGo :
    ∃ m d,
      Implementation.newSession native library .sdk (sdkPair 1).priv (goPair 3 rfl).pub
        (sdkPair 2).priv (goPair 4 rfl).pub .mobile = .ok m ∧
      Implementation.newSession native library .go (goPair 3 rfl).priv (sdkPair 1).pub
        (goPair 4 rfl).priv (sdkPair 2).pub .desktop = .ok d ∧
      m.sendKey = d.recvKey ∧ m.recvKey=d.sendKey ∧
      (Link.of m d).transferAll native library conversation = .ok [[1],[],[2,3]] := by
  have h := sessions_agree_and_round_trip scheme scheme_lawful native native_implements library
    library_implements .sdk .go (sdkPair 1) (sdkPair 2) (goPair 3 rfl) (goPair 4 rfl)
  have hm : ∃ m, Implementation.newSession native library .sdk (sdkPair 1).priv (goPair 3 rfl).pub
      (sdkPair 2).priv (goPair 4 rfl).pub .mobile = .ok m := ⟨_,rfl⟩
  obtain ⟨m,hm⟩ := hm
  obtain ⟨d,hd⟩ := h.1.mp ⟨m,hm⟩
  obtain ⟨hsend,hrecv,hrun⟩ := h.2 m d hm hd
  exact ⟨m,d,hm,hd,hsend,hrecv,hrun conversation (by decide +kernel)⟩

end

end SecureGateway.E2ee
