import Horchestra.Storage.Tokens
import Horchestra.Storage.Watch
import Horchestra.Authz.Escalation
import Horchestra.Nodeserver.Registration
import Horchestra.Nodeserver.Sessions
import Horchestra.Nodeserver.DesiredState
import Horchestra.Nodeserver.Addresses
import Horchestra.Vault.Consumers
import Horchestra.Vault.StoreEdits
import Horchestra.Apiserver.Routes
import Horchestra.AppSet.Marks
import Horchestra.AppSet.InitSteps
import Horchestra.Agent.Deletion
import Horchestra.Agent.Retries
import Horchestra.Agent.Wiring
import Horchestra.Agent.Stranding
import Horchestra.Oci.Pin
import Horchestra.Sandbox.Seccomp
import Horchestra.Agent.Applied
import Horchestra.Service.Judged
import Horchestra.Netd.Rewrite
import Horchestra.Netd.Forwarder
import Horchestra.Agent.Incarnations
import Horchestra.Agent.HeldVolumes
import Horchestra.Oci.Bounded
import Horchestra.Oci.Bindings
import Horchestra.Service.Integrity
import Horchestra.Apiserver.Catalog
import Horchestra.Apiserver.Pods
import Horchestra.Oci.Stack
import Horchestra.AppSet.Rollout
import Horchestra.Scheduler.Cycle
import Horchestra.Agent.Backoff
import Horchestra.Vault.SelfRenew
import Horchestra.Scheduler.Pass
import Horchestra.Scheduler.Preference
