import SecureGateway.Billing.License
import SecureGateway.Lib.Prog

/-!
# What a handler calls

The handlers reach the outside only through calls: the store, the clock, the random source,
the Stripe API, the revocation channel and the token signer. `perform` answers one call in a
`World`; what the world does not determine is in the `Answer`.
-/

namespace SecureGateway.Auth
open Authstore

structure RevocationEvent where
  pairID : String
  accountID : String := ""
  deriving DecidableEq

structure TokenParams where
  issuer : String
  audience : String
  accountID : String
  pairID : String
  deviceID : String
  role : Role
  licenseID : String
  ttl : Duration
  deriving DecidableEq

inductive Op
  | store (op : StoreOp)
  | now
  | newID (tag : String)
  | newKey
  | stripeGetSubscription (id : String)
  | stripeListSubscriptions
  | publishRevocation (ev : RevocationEvent)
  | mint (p : TokenParams)
  /- Not a call of the code: marks in the log that `dispatch` of the event
  returned, with or without an error. -/
  | dispatched (id : String) (ok : Bool)

abbrev Op.Rep : Op → Type
  | store op => op.Res
  | now => Time
  | newID _ => String
  | newKey => String
  | stripeGetSubscription _ => Except Err Stripe.Subscription
  | stripeListSubscriptions => Except Err (List Stripe.Subscription)
  | publishRevocation _ => Except Err Unit
  | mint _ => Except Err String
  | dispatched _ _ => Unit

abbrev Handler := Prog Op Op.Rep

abbrev Event := Prog.Event Op Op.Rep

abbrev store (op : StoreOp) : Handler op.Res := Prog.perform (Op.store op)
abbrev now : Handler Time := Prog.perform Op.now
abbrev newID (tag : String) : Handler String := Prog.perform (Op.newID tag)
abbrev newKey : Handler String := Prog.perform Op.newKey
abbrev stripeGetSubscription (id : String) : Handler (Except Err Stripe.Subscription) :=
  Prog.perform (Op.stripeGetSubscription id)
abbrev stripeListSubscriptions : Handler (Except Err (List Stripe.Subscription)) :=
  Prog.perform Op.stripeListSubscriptions
abbrev publish (ev : RevocationEvent) : Handler (Except Err Unit) :=
  Prog.perform (Op.publishRevocation ev)
abbrev mint (p : TokenParams) : Handler (Except Err String) := Prog.perform (Op.mint p)
abbrev dispatched (id : String) (ok : Bool) : Handler Unit := Prog.perform (Op.dispatched id ok)

/- The revocation channel: how many publishes were tried, which of them fail,
and the events that were published. -/
structure Channel where
  fails : ℕ → Bool := fun _ => false
  calls : ℕ := 0
  published : List RevocationEvent := []

structure World where
  store : Store := {}
  clock : Time := 0
  channel : Channel := {}

structure Answer where
  /- the time since the clock was last read -/
  elapsed : ℤ := 0
  /- the random text of a new id, license key or token -/
  fresh : String := ""
  /- the store or signer call fails, without effect -/
  fault : Bool := false
  ties : List String := []
  subscription : Option Stripe.Subscription := none
  subscriptions : Option (List Stripe.Subscription) := none

instance : Inhabited Answer := ⟨{}⟩

def answered {α : Type} : Option α → Except Err α
  | some a => .ok a
  | none => .error .fault

@[simp] theorem answered_eq_ok {α : Type} {o : Option α} {a : α} :
    answered o = .ok a ↔ o=some a := by
  cases o <;> simp [answered]

def Channel.publish (c : Channel) (ev : RevocationEvent) : Except Err Unit × Channel :=
  if c.fails c.calls then (.error .fault,{ c with calls := c.calls + 1 })
  else (.ok (),{ c with calls := c.calls + 1, published := c.published ++ [ev] })

def perform (a : Answer) : (op : Op) → World → op.Rep × World
  | .store op, w =>
    if a.fault then (.error .fault,w)
    else ((w.store.exec ⟨w.clock,a.ties⟩ op).1,{ w with store := (w.store.exec ⟨w.clock,a.ties⟩ op).2 })
  | .now, w => (w.clock + a.elapsed,{ w with clock := w.clock + a.elapsed })
  | .newID tag, w => (tag ++ "_" ++ a.fresh,w)
  | .newKey, w => ("lic_" ++ a.fresh,w)
  | .stripeGetSubscription _, w => (answered a.subscription,w)
  | .stripeListSubscriptions, w => (answered a.subscriptions,w)
  | .publishRevocation ev, w =>
    ((w.channel.publish ev).1,{ w with channel := (w.channel.publish ev).2 })
  | .mint _, w => (if a.fault then .error .fault else .ok a.fresh,w)
  | .dispatched _ _, w => ((),w)

/-! ## Serial runs

A handler that runs alone: its calls are answered one after another from a list
of answers, and with nothing passing or failing once the list is used up. -/

def answer (op : Op) (s : World × List Answer) : op.Rep × (World × List Answer) :=
  ((perform (s.2.headD {}) op s.1).1,(perform (s.2.headD {}) op s.1).2,s.2.tail)

def serve {α : Type} (p : Handler α) (as : List Answer) (w : World) : α × World :=
  ((p.run answer (w,as)).1,(p.run answer (w,as)).2.1)

section
variable {α : Type} {ok : List Event → Op → Prop} {log : List Event} {op : StoreOp}
  {f : op.Res → Handler α}

theorem obeys_stored {post : α → List Event → Prop} (hop : ok log (.store op))
    (hok : ∀ x,Prog.Obeys ok post (⟨.store op,.ok x⟩::log) (f (.ok x)))
    (herror : ∀ e,Prog.Obeys ok post (⟨.store op,.error e⟩::log) (f (.error e))) :
    Prog.Obeys ok post log (store op >>= f) := by
  refine Prog.obeys_step hop fun r => ?_
  cases r with
  | error e => exact herror e
  | ok x => exact hok x

theorem obeys_store [∀ e,Prog.Over (f (.error e))] (hop : ok log (.store op))
    (hok : ∀ x,Prog.Makes ok (⟨.store op,.ok x⟩::log) (f (.ok x))) :
    Prog.Makes ok log (store op >>= f) :=
  obeys_stored hop hok fun _ => Prog.Over.makes ok _

end

end SecureGateway.Auth
