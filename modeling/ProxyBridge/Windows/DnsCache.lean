import ProxyBridge.Library.CStrings
import ProxyBridge.Windows.Types

/-! The lookups of the DNS snoop cache of `pb_dns.c`, which maps addresses back to hostnames. -/
namespace ProxyBridge.Windows
open CStrings

structure DnsCacheEntry (α : Type) where
  ip : α
  domain : List UInt8
  expireTick : UInt64

/-- The chain of each bucket, for addresses of one family. -/
abbrev DnsCache (α : Type) := UInt32 → List (DnsCacheEntry α)

def dnsBucket (ip : UInt32) : UInt32 := (ip * 2654435761) >>> (32 - 10)

def dnsBucketV6 (ip6 : Ip6) : UInt32 :=
  ip6.toList.foldl (fun h b => (h ^^^ b.toUInt32) * 16777619) 2166136261 &&& (1024 - 1)

/-- The first entry of a chain for the address that has not expired, as it fits the caller's buffer. -/
def dnsChainLookup {α : Type} [BEq α] (chain : List (DnsCacheEntry α)) (now : UInt64) (ip : α) :
    Option (List UInt8) :=
  (chain.find? (fun e => e.ip == ip && decide (e.expireTick > now))).map (fun e => strncpyTruncate 256 e.domain)

def dnsCacheLookup (cache : DnsCache UInt32) (now : UInt64) (ip : UInt32) : Option (List UInt8) :=
  dnsChainLookup (cache (dnsBucket ip)) now ip

def dnsCacheLookupV6 (cache : DnsCache Ip6) (now : UInt64) (ip6 : Ip6) : Option (List UInt8) :=
  dnsChainLookup (cache (dnsBucketV6 ip6)) now ip6

end ProxyBridge.Windows
