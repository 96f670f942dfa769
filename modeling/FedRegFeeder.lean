import FedRegFeeder.Proof.Announcements
import FedRegFeeder.Proof.Configurations
import FedRegFeeder.Proof.Merge.Reports
import FedRegFeeder.Proof.Merge.Storage
import FedRegFeeder.Proof.Providers.Matching
import FedRegFeeder.Proof.Providers.Quantities
import FedRegFeeder.Proof.Providers.Raised
import FedRegFeeder.Proof.Providers.Rearranged
import FedRegFeeder.Proof.Providers.Records
import FedRegFeeder.Proof.SiteConfigs
