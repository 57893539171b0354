import BitStore.Checked

namespace BitStore.Clock

def start : Nat := 1000000000000000

def limit : Nat := maxSigned

def advance (now : Nat) (ns : Int) : Nat := min (now + ns).toNat limit

end BitStore.Clock
