import SecureGateway.Auth.Discipline
import SecureGateway.Lib.Machine

/-!
# Account secrets

A secret is the account's id, a dot and a random tail; `authenticateAccount` cuts it at its
first dot. A repeated `handleCreateAccount` stores a new secret and returns it only if
provisioning succeeds. While no such request fails, the stored hash is that of the secret
returned last (`HashCurrent`).
-/

namespace SecureGateway.Auth
open Authstore Prog

/- The alphabet of `randToken`: lower-case base32 without padding. -/
def base32 (text : String) : Bool :=
  text.toList.all fun c => ('a' ≤ c && c ≤ 'z') || ('2' ≤ c && c ≤ '7')

/- One request of `handleCreateAccount`, with what its calls are answered. -/
structure Rotation where
  authorization : String
  req : Option String
  answers : List Answer

def Rotation.accountID (r : Rotation) : String := r.req.getD ""

def Rotation.handler (srv : Service) (r : Rotation) : Handler (Except Reject AccountResp) :=
  handleCreateAccount srv r.authorization r.req

def issue (srv : Service) (st : World × List AccountResp) (r : Rotation) :
    World × List AccountResp :=
  let served := serve (r.handler srv) r.answers st.1
  (served.2,served.1.toOption.toList ++ st.2)

def latest (accountID : String) (issued : List AccountResp) : Option String :=
  (issued.find? fun resp => resp.accountID == accountID).map AccountResp.secret

def wentThrough : Event → Bool
  | ⟨.store _,.error _⟩ => false
  | _ => true

/-- No store call of the request fails. -/
def Rotation.unfailing (srv : Service) (w : World) (r : Rotation) : Bool :=
  ((r.handler srv).trace answer (w,r.answers)).all fun x => wentThrough x.2

/-- A request for the account is one that returns what it has stored: there is no
license to provision, or nothing fails on the way. -/
def completes (srv : Service) (accountID : String) (st : World × List AccountResp)
    (r : Rotation) : Prop :=
  r.accountID = accountID → srv.billingEnabled=true ∨ r.unfailing srv st.1 = true

instance (srv : Service) (accountID : String) (st : World × List AccountResp) (r : Rotation) :
    Decidable (completes srv accountID st r) := by
  unfold completes
  infer_instance

theorem base32_char {tail : String} (h : base32 tail=true) {c : Char} (hc : c∈tail.toList) :
    GoStrings.isSpace c=false := by
  have hrange:=List.all_eq_true.1 h c hc
  simp only [Bool.or_eq_true,Bool.and_eq_true,decide_eq_true_eq,Char.le_def,
    UInt32.le_iff_toNat_le] at hrange
  have hval : c.toNat=c.val.toNat := rfl
  simp only [GoStrings.isSpace,Bool.or_eq_false_iff,Bool.and_eq_false_iff,
    decide_eq_false_iff_not,beq_eq_false_iff_ne,hval]
  have h2 : ('2' : Char).val.toNat=50 := rfl
  have h7 : ('7' : Char).val.toNat=55 := rfl
  have ha : ('a' : Char).val.toNat=97 := rfl
  have hz : ('z' : Char).val.toNat=122 := rfl
  omega

def secretOf (accountID tail : String) : String := accountID ++ "." ++ tail

variable (accountID : String)

theorem secretOf_toList (tail : String) :
    (secretOf accountID tail).toList=accountID.toList ++ '.'::tail.toList := by
  simp [secretOf]

/-- The id comes back from the secret exactly when it has no dot. -/
theorem credentialID_secretOf (tail : String) (hid : accountID ≠ "") :
    credentialID (secretOf accountID tail)=some accountID ↔ '.'∉accountID.toList := by
  have hne : secretOf accountID tail ≠ "" := by
    intro h
    have := congrArg String.toList h
    simp [secretOf_toList] at this
  have hcut : credentialID (secretOf accountID tail)=some accountID ↔
      (accountID.toList ++ '.'::tail.toList).takeWhile (· ≠ '.')=accountID.toList := by
    simp only [credentialID,if_neg hne,GoStrings.cut,secretOf_toList]
    rw [if_pos (by simp)]
    simp only [Option.bind_some]
    constructor
    · intro h
      split at h
      · cases h
      · have hids:=congrArg String.toList (Option.some.inj h)
        rwa [String.toList_ofList] at hids
    · intro h
      rw [h,String.ofList_toList,if_neg hid]
  rw [hcut,GoStrings.takeWhile_append_eq_iff]

theorem bearer_secretOf {accountID tail : String} (hid : accountID ≠ "")
    (htrim : GoStrings.trimSpace accountID=accountID) (htail : base32 tail=true) :
    bearer ("Bearer " ++ secretOf accountID tail)=secretOf accountID tail := by
  obtain ⟨c,cs,hcs⟩ : ∃ c cs,accountID.toList=c::cs := by
    cases h : accountID.toList with
    | nil => exact absurd (String.toList_eq_nil_iff.1 h) hid
    | cons c cs => exact ⟨c,cs,rfl⟩
  have hstart:=secretOf_toList accountID tail
  have htrimmed : GoStrings.trimSpace (secretOf accountID tail)=secretOf accountID tail := by
    have hc:=GoStrings.head_of_trimSpace htrim hcs
    rcases List.eq_nil_or_concat tail.toList with hnil | ⟨ds,d,hds⟩
    · exact GoStrings.trimSpace_eq_self accountID.toList '.' (by rw [hstart,hcs]; rfl) hc
        (by rw [hstart,hnil]) (by decide)
    refine GoStrings.trimSpace_eq_self (accountID.toList ++ '.'::ds) d
      (by rw [hstart,hcs]; rfl) hc (by rw [hstart,hds]; simp) (base32_char htail ?_)
    rw [hds]
    simp
  have hlist : ("Bearer " ++ secretOf accountID tail).toList =
      "Bearer ".toList++(secretOf accountID tail).toList := by simp
  have hbearer : ("Bearer ".toList.map Char.toLower) = "bearer ".toList := by decide
  have hlen : 7<("Bearer " ++ secretOf accountID tail).toList.length := by
    rw [hlist,hstart,hcs]
    simp
  have htake : ("Bearer " ++ secretOf accountID tail).toList.take 7 = "Bearer ".toList := by
    rw [hlist]
    exact List.take_left' rfl
  have hdrop : ("Bearer " ++ secretOf accountID tail).toList.drop 7 =
      (secretOf accountID tail).toList := by
    rw [hlist]
    exact List.drop_left' rfl
  rw [bearer,if_pos ⟨hlen,by rw [htake,hbearer]⟩,hdrop,String.ofList_toList,htrimmed]

def storedHash (s : Store) (accountID : String) : Option String :=
  (s.accounts.get accountID).map Account.secretHash

theorem getAccount_eq_ok (acct : Account) (as : List Answer) (w : World) :
    (answer (.store (.getAccount accountID)) (w,as)).1 = .ok acct ↔
      (as.headD {}).fault=false ∧ w.store.accounts.get accountID=some acct := by
  simp only [answer,Auth.perform]
  cases (as.headD {}).fault with
  | true => simp
  | false => cases hget : w.store.accounts.get accountID <;> simp [Store.exec,Store.found,hget]

theorem authenticateAccount_eq_some (srv : Service) (hhash : ∀ text,srv.hashSecret text ≠ "")
    (authorization accountID : String) (as : List Answer) (w : World) :
    (serve (authenticateAccount srv authorization) as w).1=some accountID ↔
      credentialID (bearer authorization)=some accountID ∧ (as.headD {}).fault=false ∧
        storedHash w.store accountID=some (srv.hashSecret (bearer authorization)) := by
  unfold serve authenticateAccount
  cases hid : credentialID (bearer authorization) with
  | none => simp [hid]
  | some id =>
    simp only [hid,run_bind,run_perform]
    cases hgot : (answer (.store (.getAccount id)) (w,as)).1 with
    | error e =>
      have hmissing : ¬ ((as.headD {}).fault=false ∧
          storedHash w.store id=some (srv.hashSecret (bearer authorization))) := by
        rintro ⟨hf,hstored⟩
        obtain ⟨acct,hget,-⟩:=Option.map_eq_some_iff.1 hstored
        have hok:=(getAccount_eq_ok id acct as w).2 ⟨hf,hget⟩
        cases hgot.symm.trans hok
      simp only [run_pure,reduceCtorEq,false_iff]
      rintro ⟨hsome,h⟩
      cases hsome
      exact hmissing h
    | ok acct =>
      obtain ⟨hf,hget⟩:=(getAccount_eq_ok id acct as w).1 hgot
      have hstored : storedHash w.store id=some acct.secretHash := by rw [storedHash,hget]; rfl
      by_cases heq : srv.hashSecret (bearer authorization)=acct.secretHash
      · have hne : acct.secretHash ≠ "" := heq ▸ hhash (bearer authorization)
        simp only [if_neg hne,heq,ne_eq,not_true,if_false,run_pure]
        constructor
        · intro hsome
          cases hsome
          exact ⟨rfl,hf,hstored⟩
        · exact fun h => h.1
      · have hrefused : ∀ p : Handler (Option String),
            (if acct.secretHash = "" then pure none
              else if srv.hashSecret (bearer authorization)≠acct.secretHash then pure none
              else p)=pure none := by
          intro p
          rw [if_pos heq,ite_self]
        simp only [hrefused,run_pure,reduceCtorEq,false_iff]
        rintro ⟨hsome,-,h⟩
        cases hsome
        exact heq (Option.some.inj (hstored.symm.trans h)).symm

def sparesAccounts : Op → Bool
  | .store (.upsertAccount _) => false
  | _ => true

theorem accounts_perform {op : Op} (hop : sparesAccounts op=true) (a : Answer) (w : World) :
    (Auth.perform a op w).2.store.accounts=w.store.accounts := by
  rcases perform_writes a op w with hsame | ⟨sop,rfl,hwrites⟩
  · rw [hsame]
  generalize (Auth.perform a (.store sop) w).2.store=s' at hwrites
  cases hwrites with
  | account => cases hop
  | _ => rfl

theorem provisionOpenLicense_spares (srv : Service) (accountID : String) :
    Obeys (fun _ op => sparesAccounts op=true)
      (fun res log => (∀ e∈log,wentThrough e=true) → ∃ ids,res = .ok ids) []
      (provisionOpenLicense srv accountID) := by
  have hfailed : ∀ {op : StoreOp} {e : Err} {log : List Event} {p : Prop},
      (∀ x∈(⟨.store op,Except.error e⟩ : Event)::log, wentThrough x=true) → p :=
    fun h => nomatch h _ List.mem_cons_self
  refine obeys_step rfl fun r => ?_
  cases r with
  | error e => exact obeys_pure fun h => hfailed h
  | ok existing =>
    dsimp only
    cases hactive : existing.find? fun l => l.status == .active with
    | some l => exact obeys_pure fun _ => ⟨_,rfl⟩
    | none =>
      refine obeys_step rfl fun t => obeys_step rfl fun subID => obeys_step rfl fun r => ?_
      cases r with
      | error e => exact obeys_pure fun h => hfailed h
      | ok _ =>
        refine obeys_step rfl fun licID => obeys_step rfl fun r => ?_
        cases r with
        | error e => exact obeys_pure fun h => hfailed h
        | ok _ => exact obeys_pure fun _ => ⟨_,rfl⟩

theorem provisionOpenLicense_run (srv : Service) (accountID : String) (s : World × List Answer) :
    ((provisionOpenLicense srv accountID).run answer s).2.1.store.accounts =
        s.1.store.accounts ∧
      ((((provisionOpenLicense srv accountID).trace answer s).all fun x => wentThrough x.2)=true →
        ∃ ids,((provisionOpenLicense srv accountID).run answer s).1 = .ok ids) := by
  obtain ⟨haccounts,hok⟩:=run_obeys answer (fun _ op => sparesAccounts op=true)
    (fun _ s' => s'.1.store.accounts=s.1.store.accounts)
    (fun _ op s' hs hop => (accounts_perform hop _ s'.1).trans hs) _ _ [] s
    (provisionOpenLicense_spares srv accountID) rfl
  refine ⟨haccounts,fun hall => hok fun e he => ?_⟩
  obtain ⟨x,hx,rfl⟩ : ∃ x∈(provisionOpenLicense srv accountID).trace answer s, x.2=e := by
    simpa [logAfter] using he
  exact List.all_eq_true.1 hall x hx

theorem storedHash_upsertAccount (s : Store) (a : Account) (ha : a.secretHash ≠ "") (k : String) :
    storedHash (s.upsertAccount a) k =
      if a.id=k then some a.secretHash else storedHash s k := by
  have hsplit : ∀ m : Account,m.id=a.id → m.secretHash=a.secretHash →
      ((s.accounts.put m).get k).map Account.secretHash =
        if a.id=k then some a.secretHash else storedHash s k := by
    intro m hid hhash
    rw [Table.get_put,hid,← hhash]
    split <;> rfl
  unfold Store.upsertAccount Store.mergedAccount
  cases s.accounts.get a.id with
  | none => exact hsplit a rfl rfl
  | some existing => exact hsplit _ rfl (if_neg ha)

/- What `handleCreateAccount` does once the account is stored. -/
def provision (srv : Service) (accountID secret : String) : Handler (Except Reject AccountResp) :=
  if srv.billingEnabled then return .ok { accountID, secret }
  else do
    match ← provisionOpenLicense srv accountID with
    | .error _ => return .error ⟨500,"store_error"⟩
    | .ok ids => return .ok { accountID, secret, licenseID := ids.1 }

theorem provision_run (srv : Service) (accountID secret : String) (s : World × List Answer) :
    ((provision srv accountID secret).run answer s).2.1.store.accounts=s.1.store.accounts ∧
      (srv.billingEnabled=true ∨
          ((provision srv accountID secret).trace answer s).all (fun x => wentThrough x.2)=true →
        ∃ licenseID,((provision srv accountID secret).run answer s).1 =
          .ok ⟨accountID,secret,licenseID⟩) ∧
      ∀ resp,((provision srv accountID secret).run answer s).1 = .ok resp →
        resp.accountID=accountID := by
  unfold provision
  cases hbilling : srv.billingEnabled with
  | true =>
    refine ⟨rfl,fun _ => ⟨"",rfl⟩,fun resp hresp => ?_⟩
    cases hresp
    rfl
  | false =>
    obtain ⟨haccounts,hok⟩:=provisionOpenLicense_run srv accountID s
    simp only [Bool.false_eq_true,if_false,false_or,run_bind,trace_bind,List.all_append,
      Bool.and_eq_true]
    cases hres : ((provisionOpenLicense srv accountID).run answer s).1 with
    | error e =>
      refine ⟨haccounts,fun h => ?_,fun resp hresp => nomatch hresp⟩
      obtain ⟨ids,hids⟩:=hok h.1
      cases hres.symm.trans hids
    | ok ids =>
      refine ⟨haccounts,fun _ => ⟨ids.1,rfl⟩,fun resp hresp => ?_⟩
      cases hresp
      rfl

def rotate (srv : Service) (accountID secret : String) (createdAt : Time) :
    Handler (Except Reject AccountResp) :=
  .call (.store (.upsertAccount
      { id := accountID, secretHash := srv.hashSecret secret, createdAt })) fun
    | .error _ => .ret (.error ⟨500,"store_error"⟩)
    | .ok _ => provision srv accountID secret

variable {srv : Service}

theorem handleCreateAccount_eq {authorization : String} {req : Option String}
    (hadmin : authorizeAdmin srv authorization=true) (hid : req.getD "" ≠ "") :
    handleCreateAccount srv authorization req =
      .call (.newID "s") fun id => .call .now fun t =>
        rotate srv (req.getD "") (secretOf (req.getD "") (dropChars 2 id)) t := by
  unfold handleCreateAccount
  simp only [hadmin,Bool.not_true,Bool.false_eq_true,if_false,if_neg hid]
  refine congrArg (Prog.call _) (funext fun id => congrArg (Prog.call _) (funext fun t =>
    congrArg (Prog.call _) (funext fun res => ?_)))
  cases res <;> rfl

def TurnedDown (w : World) (served : Except Reject AccountResp × World) : Prop :=
  (∀ k, storedHash served.2.store k = storedHash w.store k) ∧ ∃ e, served.1 = .error e

/- The secret is stored for the account, and is returned if nothing `fails`. -/
def SecretStored (srv : Service) (accountID secret : String) (fails : Prop) (w : World)
    (served : Except Reject AccountResp × World) : Prop :=
  (∀ k, storedHash served.2.store k =
      if accountID=k then some (srv.hashSecret secret) else storedHash w.store k) ∧
    (¬ fails → ∃ licenseID, served.1 = .ok ⟨accountID,secret,licenseID⟩) ∧
    ∀ resp, served.1 = .ok resp → resp.accountID=accountID

def Fails (srv : Service) (p : Handler (Except Reject AccountResp)) (s : World × List Answer) :
    Prop :=
  ¬ (srv.billingEnabled=true ∨ (p.trace answer s).all (fun x => wentThrough x.2) = true)

theorem rotate_cases (hhash : ∀ text,srv.hashSecret text ≠ "") (accountID secret : String)
    (t : Time) (s : World × List Answer) :
    TurnedDown s.1 (serve (rotate srv accountID secret t) s.2 s.1) ∨
      SecretStored srv accountID secret (Fails srv (rotate srv accountID secret t) s) s.1
        (serve (rotate srv accountID secret t) s.2 s.1) := by
  unfold serve Fails rotate
  simp only [run,trace,List.all_cons]
  cases hres : (answer (.store (.upsertAccount
      { id := accountID, secretHash := srv.hashSecret secret, createdAt := t })) s).1 with
  | error e =>
    left
    refine ⟨fun k => ?_,⟨_,rfl⟩⟩
    have hsame:=perform_error hres
    exact congrArg (fun store => storedHash store k) hsame
  | ok x =>
    right
    obtain ⟨haccounts,hok,hnamed⟩:=provision_run srv accountID secret
      (answer (.store (.upsertAccount
        { id := accountID, secretHash := srv.hashSecret secret, createdAt := t })) s).2
    refine ⟨?_,?_,hnamed⟩
    · intro k
      have hwritten:=(perform_ok hres).2
      calc storedHash _ k
          = storedHash (s.1.store.upsertAccount
              { id := accountID, secretHash := srv.hashSecret secret, createdAt := t }) k := by
            unfold storedHash
            rw [haccounts]
            exact congrArg (fun store : Store => storedHash store k) hwritten
        _ = _ := storedHash_upsertAccount s.1.store _ (hhash secret) k
    · intro h
      apply hok
      rcases not_not.1 h with hbilling | hall
      · exact .inl hbilling
      · exact .inr (Bool.and_eq_true_iff.1 hall).2

/-- A request is refused, or it stores the secret with a fresh tail and returns it,
unless one of its later calls fails. -/
theorem handler_cases (hhash : ∀ text,srv.hashSecret text ≠ "") (w : World) (r : Rotation) :
    TurnedDown w (serve (r.handler srv) r.answers w) ∨
      (r.accountID ≠ "" ∧
        SecretStored srv r.accountID (secretOf r.accountID (r.answers.headD {}).fresh)
          (Fails srv (r.handler srv) (w,r.answers)) w (serve (r.handler srv) r.answers w)) := by
  cases hadmin : authorizeAdmin srv r.authorization with
  | false =>
    left
    simp [TurnedDown,serve,Rotation.handler,handleCreateAccount,hadmin]
  | true =>
    by_cases hid : r.req.getD "" = ""
    · left
      simp [TurnedDown,serve,Rotation.handler,handleCreateAccount,hadmin,hid]
    have hsecret : secretOf r.accountID (dropChars 2 ("s" ++ "_" ++ (r.answers.headD {}).fresh)) =
        secretOf r.accountID (r.answers.headD {}).fresh := by
      simp [dropChars]
    -- drawing the tail and reading the clock leave the store and cannot fail
    have hrotate:=rotate_cases hhash r.accountID
      (secretOf r.accountID (dropChars 2 ("s" ++ "_" ++ (r.answers.headD {}).fresh)))
      (answer .now (w,r.answers.tail)).1 (answer .now (w,r.answers.tail)).2
    unfold Rotation.handler
    rw [handleCreateAccount_eq hadmin hid,← hsecret]
    exact hrotate.imp (fun h => h) fun h => ⟨hid,h⟩

/-- The secret returned last for the account has a random tail, and its hash is the one
that is stored. -/
def HashCurrent (srv : Service) (accountID : String) (st : World × List AccountResp) : Prop :=
  ∀ secret, latest accountID st.2 = some secret →
    accountID ≠ "" ∧ (∃ tail, base32 tail = true ∧ secret = secretOf accountID tail) ∧
      storedHash st.1.store accountID = some (srv.hashSecret secret)

theorem base32_fresh {r : Rotation} (h : ∀ a∈r.answers,base32 a.fresh=true) :
    base32 (r.answers.headD {}).fresh=true := by
  cases hans : r.answers with
  | nil => rfl
  | cons a as => exact h a (hans ▸ List.mem_cons_self)

theorem hashCurrent_issue (hhash : ∀ text,srv.hashSecret text ≠ "") {accountID : String}
    {st : World × List AccountResp} {r : Rotation}
    (hfresh : ∀ a∈r.answers,base32 a.fresh=true) (hr : completes srv accountID st r)
    (h : HashCurrent srv accountID st) : HashCurrent srv accountID (issue srv st r) := by
  unfold issue
  rcases handler_cases hhash st.1 r with ⟨hkept,e,herr⟩ | ⟨hid,hwritten,hret,hnamed⟩
  · intro secret hlast
    simp only [herr] at hlast
    obtain ⟨hne,htail,hstored⟩:=h secret hlast
    exact ⟨hne,htail,(hkept accountID).trans hstored⟩
  by_cases heq : r.accountID=accountID
  · have hdone : ¬ Fails srv (r.handler srv) (st.1,r.answers) := not_not.2 (hr heq)
    obtain ⟨licenseID,hok⟩:=hret hdone
    intro secret hlast
    have hsecret : secretOf accountID (r.answers.headD {}).fresh=secret := by
      simpa [hok,Except.toOption,latest,heq] using hlast
    refine ⟨heq ▸ hid,⟨_,base32_fresh hfresh,hsecret.symm⟩,?_⟩
    rw [hwritten accountID,if_pos heq,heq,hsecret]
  intro secret hlast
  have hbefore : latest accountID st.2=some secret := by
    cases hserved : (serve (r.handler srv) r.answers st.1).1 with
    | error e => simpa [hserved,Except.toOption] using hlast
    | ok resp =>
      have hother : ¬ resp.accountID=accountID := by rwa [hnamed resp hserved]
      simpa [hserved,Except.toOption,latest,hother] using hlast
  obtain ⟨hne,htail,hstored⟩:=h secret hbefore
  refine ⟨hne,htail,?_⟩
  rw [hwritten accountID,if_neg heq]
  exact hstored

theorem hashCurrent_run (hhash : ∀ text,srv.hashSecret text ≠ "") {accountID : String}
    {st : World × List AccountResp} {rs : List Rotation}
    (hfresh : ∀ r∈rs,∀ a∈r.answers,base32 a.fresh=true)
    (hrun : Machine.Guarded (issue srv) (completes srv accountID) st rs)
    (h : HashCurrent srv accountID st) :
    HashCurrent srv accountID (Machine.run (issue srv) st rs) := by
  induction rs generalizing st with
  | nil => exact h
  | cons r rs ih =>
    have hhead:=hashCurrent_issue hhash (hfresh r List.mem_cons_self) hrun.1 h
    exact ih (fun r' hr' => hfresh r' (List.mem_cons_of_mem r hr')) hrun.2 hhead

/-- As long as every request for the account completes, the secret returned last
authenticates as this account, and no other does, exactly when the id has no dot. -/
theorem account_secret_round_trip (srv : Service) (hinj : Function.Injective srv.hashSecret)
    (hhash : ∀ text, srv.hashSecret text ≠ "") (w : World) (rs : List Rotation)
    (hfresh : ∀ r ∈ rs, ∀ a ∈ r.answers, base32 a.fresh = true) (accountID : String)
    (hrun : Machine.Guarded (issue srv) (completes srv accountID) (w,[]) rs)
    (htrim : GoStrings.trimSpace accountID = accountID) (secret : String)
    (hlast : latest accountID (Machine.run (issue srv) (w,[]) rs).2 = some secret) :
    ((serve (authenticateAccount srv ("Bearer " ++ secret)) []
          (Machine.run (issue srv) (w,[]) rs).1).1 = some accountID ∧
        ∀ authorization as,
          (serve (authenticateAccount srv authorization) as
            (Machine.run (issue srv) (w,[]) rs).1).1 = some accountID →
          bearer authorization = secret) ↔
      '.' ∉ accountID.toList := by
  have hstart : HashCurrent srv accountID (w,[]) := fun _ h => nomatch h
  obtain ⟨hid,⟨tail,htail,rfl⟩,hstored⟩ := hashCurrent_run hhash hfresh hrun hstart secret hlast
  have hbearer := bearer_secretOf hid htrim htail
  have hcredential := credentialID_secretOf accountID tail hid
  constructor
  · rintro ⟨hauth,-⟩
    have hcut := ((authenticateAccount_eq_some srv hhash _ _ _ _).1 hauth).1
    rw [hbearer] at hcut
    exact hcredential.1 hcut
  intro hdot
  constructor
  · refine (authenticateAccount_eq_some srv hhash _ _ _ _).2 ⟨?_,rfl,?_⟩
    · rw [hbearer]
      exact hcredential.2 hdot
    · rw [hbearer]
      exact hstored
  · intro authorization as hauth
    have hsame := ((authenticateAccount_eq_some srv hhash _ _ _ _).1 hauth).2.2
    exact hinj (Option.some.inj (hsame.symm.trans hstored))

/-! ## Samples

A deployment without billing, where creating an account provisions its license. -/

def openService : Service := { sampleService with billingEnabled := false }

def minting (accountID tail : String) : Rotation :=
  ⟨"Bearer root",some accountID,drawing tail⟩

def interrupted (accountID tail : String) : Rotation :=
  ⟨"Bearer root",some accountID,[{ fresh := tail },{},{},{ fault := true }]⟩

def presentedBack (accountID : String) (rs : List Rotation) : Option (String × Option String) :=
  let st := Machine.run (issue openService) ({},[]) rs
  (latest accountID st.2).map fun secret =>
    (secret,(serve (authenticateAccount openService ("Bearer " ++ secret)) [] st.1).1)

theorem returned_secret_refused :
    presentedBack "team.a" [minting "team.a" "s"] = some ("team.a.s",none) ∧
    presentedBack "team" [minting "team" "s",interrupted "team" "t"] = some ("team.s",none) := by
  decide +kernel

theorem account_secret_round_trip_rotated :
    presentedBack "team" [minting "team" "s",minting "other" "u",minting "team" "t"] =
        some ("team.t",some "team") ∧
      ∀ authorization as,
        (serve (authenticateAccount openService authorization) as (Machine.run (issue openService)
          ({},[]) [minting "team" "s",minting "other" "u",minting "team" "t"]).1).1 =
            some "team" →
        bearer authorization = "team.t" := by
  have hinj : Function.Injective openService.hashSecret := by
    intro a b h
    have hlists := congrArg String.toList h
    exact String.toList_injective (by simpa [openService,sampleService] using hlists)
  have hhash : ∀ text, openService.hashSecret text ≠ "" := by
    intro text h
    have hlists := congrArg String.toList h
    simp [openService,sampleService] at hlists
  have hround := (account_secret_round_trip openService hinj hhash {}
    [minting "team" "s",minting "other" "u",minting "team" "t"] (by decide +kernel) "team"
    (by decide +kernel) (by decide +kernel) "team.t" (by decide +kernel)).2 (by decide)
  exact ⟨by decide +kernel,hround.2⟩

end SecureGateway.Auth
