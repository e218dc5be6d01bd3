import RouteControl.Bytes

/-!
# Text in bytes

Netlink text is UTF-8 that ends at the first zero byte, or at the end of the attribute when there
is none.
-/

namespace RouteControl.Bytes

def ofText (text : String) : Bytes := text.toUTF8.data.toList

/-- The UTF-8 bytes of a text and the zero byte that ends it. -/
def ofTerminatedText (text : String) : Bytes := ofText text ++ [0]

def untilZero (bytes : Bytes) : Bytes := bytes.takeWhile (· ≠ 0)

/-- The text up to the first zero byte; none when those bytes are not UTF-8. -/
def text? (bytes : Bytes) : Option String := String.fromUTF8? ⟨(untilZero bytes).toArray⟩

end RouteControl.Bytes
