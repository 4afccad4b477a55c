import Reachability.Text.Blank
import Reachability.Url.Parse

set_option autoImplicit false

/-! # Links

A link is the text that was submitted. Only a bare host is looked at any further: it becomes the
`https` URL of that host. -/

namespace Reachability.Link

/-- The characters that make a link more than a host. -/
def marksMore (c : Char) : Bool := c == '/' || c == '?' || c == '#' || c == ':'

/-- The link without blanks at its ends, if it is not empty and has none of the characters
    `/`, `?`, `#` and `:`. -/
def bare? (link : List Char) : Option (List Char) :=
  let t := Text.trimChars link
  if t.isEmpty || t.any marksMore then none else some t

/-- What goes in front of a bare link. -/
def secureLead : List Char := ['h', 't', 't', 'p', 's', ':', '/', '/']

/-- The text of the URL of a bare link. -/
def address (bare : List Char) : List Char := secureLead ++ bare

/-- The URL that is asked for when a link is checked. -/
def candidate? (link : String) : Option Url :=
  (bare? link.toList).bind fun bare => Url.parse? (address bare)

end Reachability.Link
