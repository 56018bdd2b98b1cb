import Mirror.Contracts.Common

/-!
Contracts that hold a token and approve nobody to spend it. What they hold moves by what their own
code takes and pays, and by what others send them.
-/
namespace Mirror

open Evm

/-- An account other than the contract, which makes only the calls in its code. -/
structure Other (holder : Address) where
  addr : Address
  other : addr ≠ holder

/-- Somebody's own call to a token. -/
structure TokenOp (holder : Address) where
  env : External
  who : Other holder
  token : Address
  call : TokenCall Address

section

variable {holder : Address}

namespace TokenOp

/-- A call that reverts changes nothing. -/
def apply (op : TokenOp holder) (L : Ledger) : Ledger :=
  match L.call op.env op.token op.who.addr op.call with
  | .ok L' => L'
  | .error _ => L

/-- What the contract receives of `asset`. -/
def gift (asset : Address) (op : TokenOp holder) (L : Ledger) : ℕ :=
  match L.call op.env op.token op.who.addr op.call with
  | .ok _ => if op.token = asset then op.call.inflow holder else 0
  | .error _ => 0

end TokenOp

namespace Ledger

/-- Nobody may spend what `holder` holds of `asset`. -/
def Unapproved (asset holder : Address) (L : Ledger) : Prop :=
  ∀ spender, (L asset).allowance holder spender = 0

variable {asset : Address} {L L' : Ledger} {env : External}

/-- Others can only give. -/
theorem Unapproved.apply (closed : L.Unapproved asset holder) (op : TokenOp holder) :
    (op.apply L).Unapproved asset holder ∧
      (op.apply L asset).balanceOf holder = (L asset).balanceOf holder + op.gift asset L := by
  unfold TokenOp.apply TokenOp.gift
  cases done : L.call op.env op.token op.who.addr op.call with
  | error e => exact ⟨closed, rfl⟩
  | ok L' =>
    obtain ⟨received, row⟩ := call_bystander done op.who.other (closed op.who.addr)
    exact ⟨fun spender => (congrFun row spender).trans (closed spender), received⟩

/-- The contract takes from somebody. -/
theorem Unapproved.take (closed : L.Unapproved asset holder) {src : Address} {n : ℕ}
    (other : src ≠ holder) (h : L.call env asset holder (.transferFrom src holder n) = .ok L') :
    L'.Unapproved asset holder ∧
      (L' asset).balanceOf holder = (L asset).balanceOf holder + n := by
  obtain ⟨received, -, rows⟩ := Token.transferFrom_collects other (call_same h)
  refine ⟨fun spender => ?_, received⟩
  rw [rows holder other.symm]
  exact closed spender

/-- The contract pays somebody. -/
theorem Unapproved.pay (closed : L.Unapproved asset holder) {dst : Address} {n : ℕ}
    (other : dst ≠ holder) (h : L.call env asset holder (.transfer dst n) = .ok L') :
    L'.Unapproved asset holder ∧
      (L asset).balanceOf holder = (L' asset).balanceOf holder + n := by
  obtain ⟨spent, rows⟩ := Token.transfer_spends other.symm (call_same h)
  refine ⟨fun spender => ?_, spent⟩
  rw [rows]
  exact closed spender

end Ledger

end

end Mirror
