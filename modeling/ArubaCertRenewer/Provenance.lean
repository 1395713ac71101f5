import ArubaCertRenewer.MutualExclusion
import ArubaCertRenewer.PemTexts
import ArubaCertRenewer.SentText

/- What an invocation sends, however far it has come and whatever it was answered:
   commands of its own, requests whose values the switch and the authority gave it, and
   certificates that belong to a request the switch showed over the same connection. -/
namespace ArubaCertRenewer
open PyText Effects Effects.Py

section invocation
variable {P : Platform} {a : Args} {h : History World} {ev : Event World}

end invocation

/-! A renewal at the site. -/

end ArubaCertRenewer
