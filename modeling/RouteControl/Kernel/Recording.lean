import RouteControl.Bytes.Hex
import RouteControl.Kernel.Script

/-!
# Recordings

A recording of what a kernel replied: one datagram to a line, in hexadecimal digits.  Blanks in a
line mean nothing, and neither does a line without digits.
-/

namespace RouteControl.Script

def recordedDigits (line : String) : String :=
  String.ofList (line.toList.filter fun c => !c.isWhitespace)

/-- The replies recorded in these lines, all from the kernel; none where a line is not made of
pairs of digits. -/
def ofLines? (lines : List String) : Option (List Reply) :=
  ((lines.map recordedDigits).filter (!·.isEmpty)).mapM fun digits =>
    (Bytes.ofHex? digits).map (.raw 0)

end RouteControl.Script
