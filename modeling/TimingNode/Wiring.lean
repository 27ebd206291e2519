namespace TimingNode.Wiring

def fifoDepth : Nat := 64

def outputChannel : UInt8 := 0

def referenceChannel : UInt8 := 1

end TimingNode.Wiring
