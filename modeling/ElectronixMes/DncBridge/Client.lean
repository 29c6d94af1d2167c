import Mathlib.Data.List.Basic

/-!
# The daemon channel

The commands and events of the protocol, and the TCP client. The socket is
outside: whether connecting and writing succeed is an input of `send`. The
client counts its successful sends from zero and names each of them locally; the
count lives in the process.
-/

namespace ElectronixMes.DncBridge

inductive DncBridgeError where
  | transport (message : String)
  | protocol (message : String)
  deriving DecidableEq

def DncBridgeError.display : DncBridgeError → String
  | transport m => "dnc-daemon transport error: " ++ m
  | protocol m => "dnc-daemon protocol error: " ++ m

/-- A command to the daemon. -/
inductive DncCommand where
  | sendProgram (program : String) (machine : Option String)
  deriving DecidableEq

/-- An event of the daemon. `reference` is the one returned for the command. -/
inductive DncEvent where
  | transferCompleted (reference : String)
  | transferFailed (reference error : String)
  | programReceived (program : String) (contentRef : Option String)
  deriving DecidableEq

structure TcpDncClient where
  counter : UInt64
  deriving DecidableEq

namespace TcpDncClient

def new : TcpDncClient := ⟨0⟩

/-- The reference of the `n`-th send. -/
def reference (n : UInt64) : String := "tcp-" ++ toString n.toNat

/-- Send a command; `socket` is the error of the socket, if any. -/
def send (c : TcpDncClient) (socket : Option DncBridgeError) (_ : DncCommand) :
    TcpDncClient × Except DncBridgeError String :=
  match socket with
  | some e => (c, .error e)
  | none => (⟨c.counter + 1⟩, .ok (reference c.counter))

theorem reference_injective : Function.Injective reference := by
  intro m n h
  have hdigits : (toString m.toNat).toList = (toString n.toNat).toList := by
    simpa [reference] using congrArg String.toList h
  have hnat := congrArg (Nat.ofDigitChars 10 · 0) hdigits
  have heq : m.toNat = n.toNat := by
    simpa [Nat.toString_eq_repr, Nat.ofDigitChars_toDigits] using hnat
  exact UInt64.toNat_inj.mp heq

/-- Below the size of the counter, sends with different numbers have different
references. -/
theorem reference_ofNat_inj {m n : ℕ} (hm : m < UInt64.size) (hn : n < UInt64.size)
    (h : reference (UInt64.ofNat m) = reference (UInt64.ofNat n)) : m = n := by
  have hnat := congrArg UInt64.toNat (reference_injective h)
  rwa [UInt64.toNat_ofNat_of_lt' hm, UInt64.toNat_ofNat_of_lt' hn] at hnat

end TcpDncClient

end ElectronixMes.DncBridge
