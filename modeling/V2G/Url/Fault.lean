/-!
# Faults of a URL text
-/

namespace V2G.Url

inductive Fault where
  | emptyInput
  | noBase
  | emptyHost
  | badDomainName
  | badPort
  | badIpv4
  | badIpv6
  | badHostCharacter
  deriving DecidableEq

def Fault.message : Fault → String
  | .emptyInput => "input is empty"
  | .noBase => "relative URL without a base"
  | .emptyHost => "empty host"
  | .badDomainName => "invalid international domain name"
  | .badPort => "invalid port number"
  | .badIpv4 => "invalid IPv4 address"
  | .badIpv6 => "invalid IPv6 address"
  | .badHostCharacter => "invalid domain character"

end V2G.Url
